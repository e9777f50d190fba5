import Keyline.Proofs.Logs.Recording

/-!
# Sessions of a log

Logs are opened over one directory, one after another, and record into files named by timestamps.
Within a session timestamps only rise, but a session starts at the bare clock: it goes on in the
file of that timestamp if there is one, and counts it as empty. So a file holds, session by session,
the entries that were recorded under its timestamp, and a session starts on an empty file exactly
if no earlier one recorded an entry under the reading of its clock. If every session starts later
than all files with entries of the ones before, no two share a file and no file holds more than the
threshold allows. A clock that stands still is not enough for that, and neither is one that goes
on, where a session has rotated more often than milliseconds went by.
-/
namespace Keyline

open FileTree

namespace AppendLog

/-- An entry with the timestamp of the file it was recorded in. -/
abbrev Entry := Nat × String

/-- The entries in the file of a timestamp, in order. -/
def entriesIn (n : Nat) (es : List Entry) : List String :=
  (es.filter fun e => e.1 = n).map Prod.snd

@[simp] theorem entriesIn_nil (n : Nat) : entriesIn n [] = [] := rfl

@[simp] theorem entriesIn_append (n : Nat) (es fs : List Entry) :
    entriesIn n (es ++ fs) = entriesIn n es ++ entriesIn n fs := by simp [entriesIn]

theorem entriesIn_singleton (n m : Nat) (raw : String) :
    entriesIn n [(m, raw)] = if m = n then [raw] else [] := by
  by_cases h : m = n <;> simp [entriesIn, h]

theorem entriesIn_eq_nil {n : Nat} {es : List Entry} (h : ∀ e ∈ es, e.1 ≠ n) :
    entriesIn n es = [] := by
  simpa [entriesIn] using fun m raw he => h (m, raw) he

/-- What is done with an open log, from one log and tree to another: the entries it records. What
fails changes nothing and does not appear. -/
inductive Writes : AppendLog → FileTree → List Entry → AppendLog → FileTree → Prop
  | start (log : AppendLog) (t : FileTree) : Writes log t [] log t
  | recorded {log log₁ log₂ : AppendLog} {t t₁ t₂ : FileTree} {es : List Entry} (now : Nat)
      (raw : String) (before : Writes log t es log₁ t₁)
      (record : log₁.record now raw t₁ = .ok (log₂, t₂)) :
    Writes log t (es ++ [(log₂.timestamp, raw)]) log₂ t₂
  | rotated {log log₁ log₂ : AppendLog} {t t₁ t₂ : FileTree} {es : List Entry} (now : Nat)
      (before : Writes log t es log₁ t₁) (rotate : log₁.rotate now t₁ = .ok (log₂, t₂)) :
    Writes log t es log₂ t₂

/-- A session of a log, from its start to its end, whichever way it ends. -/
structure Session where
  threshold : Nat
  /-- The timestamp of the file it started on. -/
  first : Nat
  entries : List Entry

/-- Sessions one after another over one directory. -/
inductive Sessions (dir : Path) : FileTree → List Session → FileTree → Prop
  | start (t : FileTree) : Sessions dir t [] t
  | refused {t t₁ t₂ : FileTree} {ss : List Session} (threshold now : Nat) (e : Failure)
      (before : Sessions dir t ss t₁) (opened : start dir threshold now t₁ = (.error e, t₂)) :
    Sessions dir t ss t₂
  | session {t t₁ t₂ t₃ : FileTree} {ss : List Session} {log log' : AppendLog} {es : List Entry}
      (threshold now : Nat) (before : Sessions dir t ss t₁)
      (opened : start dir threshold now t₁ = (.ok log, t₂)) (writes : Writes log t₂ es log' t₃) :
    Sessions dir t (ss ++ [⟨threshold, log.timestamp, es⟩]) t₃

/-- The files of a directory hold the entries that were recorded under their timestamps. -/
def Filed (t : FileTree) (d : Place) (es : List Entry) : Prop :=
  ∀ n, t.contentAt (d ++ [fileName n]) = (entriesIn n es).flatMap line

/-- What holds while a session of `threshold` that started on the file of `first` has recorded `es`
behind the entries `old`. -/
structure Writing (dir : Path) (threshold first : Nat) (d : Place) (old es : List Entry)
    (log : AppendLog) (t : FileTree) : Prop where
  dir_eq : log.dir = dir
  threshold_eq : log.threshold = threshold
  place : t.placeOf dir = d
  placed : log.file.place = d ++ [fileName log.timestamp]
  there : ∃ bs, t.node? log.file.place = some (.file log.file.generation bs)
  filed : Filed t d (old ++ es)
  between : first ≤ log.timestamp ∧ ∀ e ∈ es, first ≤ e.1 ∧ e.1 ≤ log.timestamp
  counted : (entriesIn log.timestamp es).length = log.entries
  length_le : ∀ n, (entriesIn n es).length ≤ threshold + 1

section Writing
variable {dir : Path} {k first : Nat} {d : Place} {old es : List Entry} {log log' : AppendLog}
  {t t' : FileTree}

theorem writing_of_start {now : Nat} (filed : Filed t d old) (place : t.placeOf dir = d)
    (opened : start dir k now t = (.ok log, t')) :
    Writing dir k log.timestamp d old [] log t' := by
  obtain ⟨t₁, g, o⟩ := start_ok opened
  have hbase : t'.base = t.base := o.base.trans g.base
  refine ⟨by rw [o.fresh], by rw [o.fresh], (placeOf_of_base hbase dir).trans place, ?_, ?_, ?_,
    ⟨Nat.le_refl _, by simp⟩, by rw [o.fresh]; rfl, by simp⟩
  · rw [o.place, placeOf_of_base g.base, place, o.fresh]
  · exact ⟨_, by rw [o.node?, if_pos rfl]⟩
  · intro n
    rw [o.contentAt_eq, g.contentAt_eq, List.append_nil]
    exact filed n

/-- The next file has a later timestamp than all that the session used. -/
theorem Writing.rotate {now : Nat} (w : Writing dir k first d old es log t)
    (rotate : log.rotate now t = .ok (log', t')) :
    Writing dir k first d old es log' t' ∧ log'.entries = 0 := by
  have o := opened_of_openFile rotate
  have later := lt_nextTimestamp now log.timestamp
  have timestamp : log'.timestamp = nextTimestamp now log.timestamp := by rw [o.fresh]
  have entries : log'.entries = 0 := by rw [o.fresh]
  obtain ⟨le, between⟩ := w.between
  refine ⟨⟨by rw [o.fresh, w.dir_eq], by rw [o.fresh, w.threshold_eq],
    (placeOf_of_base o.base dir).trans w.place, ?_, ?_, ?_, ⟨?_, ?_⟩, ?_, w.length_le⟩, entries⟩
  · rw [o.place, w.dir_eq, w.place, timestamp]
  · exact ⟨_, by rw [o.node?, if_pos rfl]⟩
  · intro n
    rw [o.contentAt_eq]
    exact w.filed n
  · omega
  · intro e he
    have := between e he
    omega
  · rw [entries, List.length_eq_zero_iff]
    apply entriesIn_eq_nil
    intro e he
    have := between e he
    omega

theorem Writing.put (w : Writing dir k first d old es log t) (raw : String)
    (room : log.entries ≤ k) : Writing dir k first d old (es ++ [(log.timestamp, raw)])
      (log.put raw t).1 (log.put raw t).2 := by
  obtain ⟨bs, hbs⟩ := w.there
  have node := node?_put raw w.placed hbs
  obtain ⟨hb, -, -⟩ := append_frame t log.file (line raw)
  obtain ⟨le, between⟩ := w.between
  have content := w.filed log.timestamp
  rw [← w.placed, contentAt_file hbs] at content
  refine ⟨w.dir_eq, w.threshold_eq, (placeOf_of_base hb dir).trans w.place, w.placed,
    ⟨_, by rw [AppendLog.put, append_open _ hbs, if_pos rfl]⟩, ?_, ⟨le, ?_⟩, ?_, ?_⟩
  · intro n
    have hn := node n
    rw [← List.append_assoc, entriesIn_append, entriesIn_singleton]
    by_cases same : log.timestamp = n
    · rw [if_pos same, content] at hn
      rw [contentAt_file hn, if_pos same, ← same]
      simp
    · rw [if_neg same] at hn
      rw [contentAt, hn, ← contentAt, w.filed n, if_neg same, List.append_nil]
  · intro e he
    rcases List.mem_append.1 he with he | he
    · exact between e he
    · rw [List.mem_singleton.1 he]
      exact ⟨le, Nat.le_refl _⟩
  · rw [AppendLog.put, entriesIn_append, List.length_append, w.counted, entriesIn_singleton,
      if_pos rfl]
    rfl
  · intro n
    rw [entriesIn_append, entriesIn_singleton, List.length_append]
    have bound := w.length_le n
    by_cases hn : log.timestamp = n
    · subst hn
      rw [if_pos rfl, w.counted]
      exact Nat.succ_le_succ room
    · rw [if_neg hn]
      exact bound

theorem Writing.record {now : Nat} {raw : String} (w : Writing dir k first d old es log t)
    (record : log.record now raw t = .ok (log', t')) :
    Writing dir k first d old (es ++ [(log'.timestamp, raw)]) log' t' := by
  rcases record_eq_ok_iff.1 record with ⟨room, hput⟩ | ⟨-, log₁, t₁, hrotate, hput⟩
  · have w' := w.put raw (w.threshold_eq ▸ room)
    rw [hput] at w'
    cases hput
    exact w'
  · obtain ⟨w₁, entries⟩ := w.rotate hrotate
    have w' := w₁.put raw (entries ▸ Nat.zero_le k)
    rw [hput] at w'
    cases hput
    exact w'

theorem Writing.writes {fs : List Entry} (w : Writing dir k first d old [] log t)
    (writes : Writes log t fs log' t') : Writing dir k first d old fs log' t' := by
  induction writes with
  | start => exact w
  | recorded now raw before record ih => exact (ih w).record record
  | rotated now before rotate ih => exact ((ih w).rotate rotate).1

end Writing

namespace Session

/-- The entries of a session in the file of a timestamp. -/
def fileOf (s : Session) (n : Nat) : List String := entriesIn n s.entries

/-- A session started later than all files that another recorded in. -/
def Before (r s : Session) : Prop := ∀ e ∈ r.entries, e.1 < s.first

/-- What a session does within itself. -/
structure Sound (s : Session) : Prop where
  first_le : ∀ e ∈ s.entries, s.first ≤ e.1
  length_le : ∀ n, (s.fileOf n).length ≤ s.threshold + 1

theorem Sound.fileOf_eq_nil {r s : Session} (sound : s.Sound) (h : Before r s) (n : Nat) :
    r.fileOf n = [] ∨ s.fileOf n = [] := by
  by_cases hn : ∃ e ∈ r.entries, e.1 = n
  · obtain ⟨e, he, rfl⟩ := hn
    right
    apply entriesIn_eq_nil
    intro f hf
    have := h e he
    have := sound.first_le f hf
    omega
  · left
    apply entriesIn_eq_nil
    intro e he hen
    exact hn ⟨e, he, hen⟩

end Session

theorem entriesIn_flatMap (n : Nat) (ss : List Session) :
    entriesIn n (ss.flatMap Session.entries) = ss.flatMap (Session.fileOf · n) := by
  induction ss with
  | nil => rfl
  | cons s ss ih => rw [List.flatMap_cons, entriesIn_append, ih, List.flatMap_cons, Session.fileOf]

/-- Where each session started later than the ones before had recorded, a file belongs to one. -/
theorem fileOf_alone {ss : List Session} (sound : ∀ s ∈ ss, s.Sound)
    (before : ss.Pairwise Session.Before) (n : Nat) :
    ss.flatMap (Session.fileOf · n) = [] ∨
      ∃ s ∈ ss, ss.flatMap (Session.fileOf · n) = s.fileOf n := by
  induction ss with
  | nil => exact .inl rfl
  | cons s ss ih =>
    obtain ⟨hs, hss⟩ := List.pairwise_cons.1 before
    rw [List.flatMap_cons]
    rcases ih (fun r hr => sound r (List.mem_cons_of_mem s hr)) hss with h | ⟨r, hr, h⟩
    · exact .inr ⟨s, List.mem_cons_self, by rw [h, List.append_nil]⟩
    · rw [h]
      rcases (sound r (List.mem_cons_of_mem s hr)).fileOf_eq_nil (hs r hr) n with h' | h'
      · exact .inr ⟨r, List.mem_cons_of_mem s hr, by rw [h', List.nil_append]⟩
      · exact .inr ⟨s, List.mem_cons_self, by rw [h', List.append_nil]⟩

section Sessions
variable {dir : Path} {t t' : FileTree} {ss : List Session}

/-- After any sessions each file holds what they recorded in it, in order. -/
theorem filed_of_sessions
    (empty : ∀ n g bs, t.node? (t.placeOf dir ++ [fileName n]) ≠ some (.file g bs))
    (run : Sessions dir t ss t') : t'.placeOf dir = t.placeOf dir ∧
      Filed t' (t.placeOf dir) (ss.flatMap Session.entries) ∧ ∀ s ∈ ss, s.Sound := by
  induction run with
  | start =>
    refine ⟨rfl, fun n => ?_, by simp⟩
    rw [contentAt]
    split
    · next g bs h => exact absurd h (empty n g bs)
    · rfl
  | refused threshold now e before opened ih =>
    obtain ⟨place, filed, sound⟩ := ih
    have g := start_error opened
    refine ⟨(placeOf_of_base g.base dir).trans place, fun n => ?_, sound⟩
    rw [g.contentAt_eq]
    exact filed n
  | session threshold now before opened writes ih =>
    obtain ⟨place, filed, sound⟩ := ih
    have w := (writing_of_start filed place opened).writes writes
    refine ⟨w.place, ?_, fun s hs => ?_⟩
    · simpa using w.filed
    · rcases List.mem_append.1 hs with hs | hs
      · exact sound s hs
      · rw [List.mem_singleton.1 hs]
        exact ⟨fun e he => (w.between.2 e he).1, w.length_le⟩

theorem flatMap_line_eq_nil_iff {raws : List String} : raws.flatMap line = [] ↔ raws = [] := by
  cases raws with
  | nil => simp
  | cons raw raws =>
    have : line raw ≠ [] := by
      rw [line, Utf8.encode_append]
      simp [Utf8.encode, Utf8.encodeChars, String.utf8EncodeChar]
    simp [this]

/-- A session starts on an empty file if and only if none before it recorded under its timestamp.
If this is so because it starts later than all of them, files are not shared, and a file holds at
most one entry more than the threshold of the session that it belongs to. -/
theorem fresh_iff_unused
    (empty : ∀ n g bs, t.node? (t.placeOf dir ++ [fileName n]) ≠ some (.file g bs))
    (run : Sessions dir t ss t') :
    (∀ threshold now log u, start dir threshold now t' = (.ok log, u) →
      (u.contentAt log.file.place = [] ↔ ∀ s ∈ ss, s.fileOf (nextTimestamp now 0) = [])) ∧
    (∀ n, t'.contentAt (t.placeOf dir ++ [fileName n]) =
      (ss.flatMap (Session.fileOf · n)).flatMap line) ∧
    (ss.Pairwise Session.Before → ∀ n, ss.flatMap (Session.fileOf · n) = [] ∨
      ∃ s ∈ ss, ss.flatMap (Session.fileOf · n) = s.fileOf n ∧
        (s.fileOf n).length ≤ s.threshold + 1) := by
  obtain ⟨place, filed, sound⟩ := filed_of_sessions empty run
  have content (n : Nat) : t'.contentAt (t.placeOf dir ++ [fileName n]) =
      (ss.flatMap (Session.fileOf · n)).flatMap line := by
    rw [filed n, entriesIn_flatMap]
  refine ⟨fun threshold now log u opened => ?_, content, fun before n => ?_⟩
  · have w := writing_of_start filed place opened
    obtain ⟨t₁, -, o⟩ := start_ok opened
    have timestamp : log.timestamp = nextTimestamp now 0 := by rw [o.fresh]
    rw [w.placed, w.filed, List.append_nil, timestamp, entriesIn_flatMap, flatMap_line_eq_nil_iff,
      List.flatMap_eq_nil_iff]
  · rcases fileOf_alone sound before n with h | ⟨s, hs, h⟩
    · exact .inl h
    · exact .inr ⟨s, hs, h, (sound s hs).length_le n⟩

/-- Each session starts in a later millisecond than the one before had come to. -/
theorem fresh_iff_unused_of_two_sessions :
    let dir : Path := ⟨"/l"⟩
    let r : Session := ⟨0, 1600000000000,
      [(1600000000000, "set a 1"), (1600000000001, "set b 2")]⟩
    let s : Session := ⟨5, 1600000000002, [(1600000000002, "set c 3")]⟩
    ∃ t, (∀ n g bs, empty.node? (empty.placeOf dir ++ [fileName n]) ≠ some (.file g bs)) ∧
      Sessions dir empty [r, s] t ∧ [r, s].Pairwise Session.Before ∧
      ∀ n, [r, s].flatMap (Session.fileOf · n) = [] ∨
        ∃ q ∈ [r, s], [r, s].flatMap (Session.fileOf · n) = q.fileOf n ∧
          (q.fileOf n).length ≤ q.threshold + 1 := by
  intro dir r s
  let m := "1600000000000.kvslog"
  let n := "1600000000001.kvslog"
  let o := "1600000000002.kvslog"
  let log (threshold timestamp entries : Nat) (name : String) : AppendLog :=
    ⟨dir, threshold, timestamp, ⟨["l", name], 0⟩, entries⟩
  let t₀ := (empty.insert ["l"] .directory).insert ["l", m] (.file 0 [])
  let t₁ := t₀.insert ["l", m] (.file 0 (line "set a 1"))
  let t₂ := t₁.insert ["l", n] (.file 0 (line "set b 2"))
  let t₃ := t₂.insert ["l", o] (.file 0 [])
  let t₄ := t₃.insert ["l", o] (.file 0 (line "set c 3"))
  have none : ∀ n g bs, empty.node? (empty.placeOf dir ++ [fileName n]) ≠ some (.file g bs) := by
    simp [node?, FileTree.empty, find?]
  have start₁ : start dir 0 1600000000000 empty = (.ok (log 0 1600000000000 0 m), t₀) := by
    decide +kernel
  have record₁ : (log 0 1600000000000 0 m).record 1600000000000 "set a 1" t₀ =
      .ok (log 0 1600000000000 1 m, t₁) := by decide +kernel
  have record₂ : (log 0 1600000000000 1 m).record 1600000000000 "set b 2" t₁ =
      .ok (log 0 1600000000001 1 n, t₂) := by decide +kernel
  have start₂ : start dir 5 1600000000002 t₂ = (.ok (log 5 1600000000002 0 o), t₃) := by
    decide +kernel
  have record₃ : (log 5 1600000000002 0 o).record 1600000000002 "set c 3" t₃ =
      .ok (log 5 1600000000002 1 o, t₄) := by decide +kernel
  have run : Sessions dir empty [r, s] t₄ :=
    .session 5 1600000000002
      (.session 0 1600000000000 (.start _) start₁
        (.recorded 1600000000000 "set b 2"
          (.recorded 1600000000000 "set a 1" (.start _ _) record₁) record₂))
      start₂ (.recorded 1600000000002 "set c 3" (.start _ _) record₃)
  have before : [r, s].Pairwise Session.Before := by simp [r, s, Session.Before]
  exact ⟨t₄, none, run, before, (fresh_iff_unused none run).2.2 before⟩

/-- The first session rotates within a millisecond and so records in a file of the next one. There
the second session starts, which counts no entry and adds one to that file. -/
theorem not_fresh_after_rotation :
    let dir : Path := ⟨"/l"⟩
    let r : Session := ⟨0, 1700000000000,
      [(1700000000000, "set a 1"), (1700000000001, "set b 2")]⟩
    let s : Session := ⟨0, 1700000000001, [(1700000000001, "set c 3")]⟩
    ∃ t log u log' v, Sessions dir empty [r] t ∧
      start dir 0 1700000000001 t = (.ok log, u) ∧ log.entries = 0 ∧
      u.contentAt log.file.place = line "set b 2" ∧
      log.record 1700000000001 "set c 3" u = .ok (log', v) ∧ Sessions dir empty [r, s] v ∧
      v.contentAt log'.file.place = line "set b 2" ++ line "set c 3" := by
  intro dir r s
  let m := "1700000000000.kvslog"
  let n := "1700000000001.kvslog"
  let log (timestamp entries : Nat) (name : String) : AppendLog :=
    ⟨dir, 0, timestamp, ⟨["l", name], 0⟩, entries⟩
  let t₀ := (empty.insert ["l"] .directory).insert ["l", m] (.file 0 [])
  let t₁ := t₀.insert ["l", m] (.file 0 (line "set a 1"))
  let t₂ := t₁.insert ["l", n] (.file 0 (line "set b 2"))
  let t₃ := t₂.insert ["l", n] (.file 0 (line "set b 2" ++ line "set c 3"))
  have start₁ : start dir 0 1700000000000 empty = (.ok (log 1700000000000 0 m), t₀) := by
    decide +kernel
  have record₁ : (log 1700000000000 0 m).record 1700000000000 "set a 1" t₀ =
      .ok (log 1700000000000 1 m, t₁) := by decide +kernel
  have record₂ : (log 1700000000000 1 m).record 1700000000000 "set b 2" t₁ =
      .ok (log 1700000000001 1 n, t₂) := by decide +kernel
  have start₂ : start dir 0 1700000000001 t₂ = (.ok (log 1700000000001 0 n), t₂) := by
    decide +kernel
  have record₃ : (log 1700000000001 0 n).record 1700000000001 "set c 3" t₂ =
      .ok (log 1700000000001 1 n, t₃) := by decide +kernel
  have first : Sessions dir empty [r] t₂ :=
    .session 0 1700000000000 (.start _) start₁
      (.recorded 1700000000000 "set b 2"
        (.recorded 1700000000000 "set a 1" (.start _ _) record₁) record₂)
  have second : Sessions dir empty [r, s] t₃ :=
    .session 0 1700000000001 first start₂ (.recorded 1700000000001 "set c 3" (.start _ _) record₃)
  exact ⟨t₂, _, t₂, _, t₃, first, start₂, rfl, by decide +kernel, record₃, second,
    by decide +kernel⟩

end Sessions

end AppendLog
end Keyline
