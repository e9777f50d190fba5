import Keyline.AppendLog
import Keyline.Proofs.Files.Frames

/-!
# Recording an entry

Opening a file of a log leaves it with what it held before and touches no other place. An entry is
put behind the content of the file in use, which is a new one if the last held too many entries; if
that cannot be opened nothing is recorded and the files are as they were.
-/
namespace Keyline.AppendLog

open FileTree

theorem fileName_injective {m n : Nat} (h : fileName m = fileName n) : m = n := by
  have hd : Nat.toDigits 10 m = Nat.toDigits 10 n := by
    have := congrArg String.toList h
    simpa [fileName] using this
  rw [← Nat.ofDigitChars_ten_toDigits (n := m), hd, Nat.ofDigitChars_ten_toDigits]

theorem place_ne {d : Place} {m n : Nat} (h : m ≠ n) : d ++ [fileName m] ≠ d ++ [fileName n] := by
  intro he
  exact h (fileName_injective (List.append_singleton_inj.1 he).2)

/-- `log` has just opened the file of a timestamp. -/
structure Opened (dir : Path) (threshold timestamp : Nat) (log : AppendLog) (t t' : FileTree) :
    Prop where
  fresh : log = ⟨dir, threshold, timestamp, log.file, 0⟩
  directory : t.directory dir = .ok (t.placeOf dir)
  place : log.file.place = t.placeOf dir ++ [fileName timestamp]
  free : t.node? log.file.place ≠ some .directory
  base : t'.base = t.base
  removals : t'.removals = t.removals
  node? : ∀ q, t'.node? q = if log.file.place = q then
    some (.file log.file.generation (t.contentAt q)) else t.node? q

theorem opened_of_openFile {dir : Path} {threshold timestamp : Nat} {log : AppendLog}
    {t t' : FileTree} (h : openFile dir threshold timestamp t = .ok (log, t')) :
    Opened dir threshold timestamp log t t' := by
  rw [openFile] at h
  cases he : t.entry dir (fileName timestamp) with
  | error f => simp [he, Except.bind] at h
  | ok p =>
    obtain ⟨-, d, hd, rfl⟩ := entry_eq_ok_iff.1 he
    obtain rfl := eq_placeOf_of_directory hd
    rw [he] at h
    dsimp only [Except.bind] at h
    by_cases hn : t.node? (t.placeOf dir ++ [fileName timestamp]) = some .directory
    · rw [openAppend, hn] at h
      simp at h
    · obtain ⟨f, t₁, ho, hp, hb, hr, hq⟩ := openAppend_child (node?_of_directory hd) hn
      rw [ho] at h
      cases h
      refine ⟨rfl, hd, hp, hp ▸ hn, hb, hr, ?_⟩
      intro q
      rw [hq, hp]

theorem Opened.changesIn {dir : Path} {threshold timestamp : Nat} {log : AppendLog}
    {t t' : FileTree} (h : Opened dir threshold timestamp log t t') :
    ChangesIn (t.placeOf dir) t t' := by
  apply changesIn_of_node? h.base
  intro p hp
  rw [h.node?, if_neg]
  rw [h.place]
  exact Ne.symm (hp _)

theorem Opened.keeps {dir : Path} {threshold timestamp : Nat} {log : AppendLog}
    {t t' : FileTree} (h : Opened dir threshold timestamp log t t') : Keeps t t' := by
  refine ⟨h.base, fun p hp => ?_⟩
  rw [h.node?, if_neg]
  · exact hp
  · rintro rfl
    exact h.free hp

theorem Opened.contentAt_eq {dir : Path} {threshold timestamp : Nat} {log : AppendLog}
    {t t' : FileTree} (h : Opened dir threshold timestamp log t t') (p : Place) :
    t'.contentAt p = t.contentAt p := by
  have hp := h.node? p
  by_cases e : log.file.place = p
  · rw [if_pos e] at hp
    exact contentAt_file hp
  · rw [if_neg e] at hp
    rw [contentAt, hp, ← contentAt]

theorem Opened.vacant {dir : Path} {threshold timestamp : Nat} {log : AppendLog}
    {t t' : FileTree} (h : Opened dir threshold timestamp log t t')
    (hn : ∀ g bs, t.node? log.file.place ≠ some (.file g bs)) :
    t'.node? log.file.place = some (.file log.file.generation []) := by
  have hc : t.contentAt log.file.place = [] := by
    rw [contentAt]
    split
    · next g bs hf => exact absurd hf (hn g bs)
    · rfl
  rw [h.node?, if_pos rfl, hc]

theorem start_ok {dir : Path} {threshold now : Nat} {log : AppendLog} {t t' : FileTree}
    (h : start dir threshold now t = (.ok log, t')) :
    ∃ t₁, Grows t t₁ ∧ Opened dir threshold (nextTimestamp now 0) log t₁ t' := by
  rw [start] at h
  have g := grows_makeDirectories t dir
  cases hm : t.makeDirectories dir with
  | mk r t₁ =>
    rw [hm] at h g
    cases r with
    | error f => simp at h
    | ok q =>
      dsimp only at h
      cases ho : openFile dir threshold (nextTimestamp now 0) t₁ with
      | error e => simp [ho] at h
      | ok lt =>
        rw [ho] at h
        cases h
        exact ⟨t₁, g, opened_of_openFile ho⟩

theorem start_error {dir : Path} {threshold now : Nat} {e : Failure} {t t' : FileTree}
    (h : start dir threshold now t = (.error e, t')) : Grows t t' := by
  rw [start] at h
  have g := grows_makeDirectories t dir
  cases hm : t.makeDirectories dir with
  | mk r t₁ =>
    rw [hm] at h g
    cases r with
    | error f =>
      cases h
      exact g
    | ok q =>
      dsimp only at h
      cases ho : openFile dir threshold (nextTimestamp now 0) t₁ with
      | error e =>
        rw [ho] at h
        cases h
        exact g
      | ok lt => simp [ho] at h

/-- An entry goes to the file in use, or to a new one that could be opened. -/
theorem record_eq_ok_iff {log log' : AppendLog} {now : Nat} {raw : String} {t t' : FileTree} :
    log.record now raw t = .ok (log', t') ↔
      (log.entries ≤ log.threshold ∧ log.put raw t = (log', t')) ∨
      (log.threshold < log.entries ∧ ∃ log₁ t₁,
        log.rotate now t = .ok (log₁, t₁) ∧ log₁.put raw t₁ = (log', t')) := by
  rw [record]
  by_cases h : log.threshold < log.entries
  · rw [if_pos h, iff_false_intro (Nat.not_le.2 h)]
    rcases log.rotate now t with e | ⟨log₁, t₁⟩
    · simp
    · simp [h, and_assoc]
  · simp [h, Nat.not_lt.1 h]

theorem keeps_of_record {log log' : AppendLog} {now : Nat} {raw : String} {t t' : FileTree}
    (h : log.record now raw t = .ok (log', t')) : Keeps t t' := by
  rcases record_eq_ok_iff.1 h with ⟨-, hput⟩ | ⟨-, log₁, t₁, hr, hput⟩
  · cases hput
    exact keeps_append _ _ _
  · cases hput
    exact (opened_of_openFile hr).keeps.trans (keeps_append _ _ _)

/-- Of the files of a log an entry changes only the one in use, at whose end it is put. -/
theorem node?_put {log : AppendLog} {t : FileTree} {d : Place} {bs : Bytes} (raw : String)
    (placed : log.file.place = d ++ [fileName log.timestamp])
    (there : t.node? log.file.place = some (.file log.file.generation bs)) (n : Nat) :
    (log.put raw t).2.node? (d ++ [fileName n]) =
      if log.timestamp = n then some (.file log.file.generation (bs ++ line raw))
      else t.node? (d ++ [fileName n]) := by
  rw [put, append_open (line raw) there, placed]
  by_cases hn : log.timestamp = n
  · rw [if_pos (by rw [hn]), if_pos hn]
  · rw [if_neg (place_ne hn), if_neg hn]

/-- The file in use lies in the directory of the log. -/
def Placed (log : AppendLog) (t : FileTree) : Prop :=
  log.file.place = t.placeOf log.dir ++ [fileName log.timestamp]

theorem Opened.placed {dir : Path} {threshold timestamp : Nat} {log : AppendLog}
    {t t' : FileTree} (h : Opened dir threshold timestamp log t t') : log.Placed t' := by
  rw [Placed, placeOf_of_base h.base, h.place, h.fresh]

theorem changesIn_of_record {log log' : AppendLog} {now : Nat} {raw : String} {t t' : FileTree}
    (h : log.record now raw t = .ok (log', t')) (hp : log.Placed t) :
    log'.dir = log.dir ∧ log'.threshold = log.threshold ∧ log'.Placed t' ∧
      ChangesIn (t.placeOf log.dir) t t' := by
  rcases record_eq_ok_iff.1 h with ⟨-, hput⟩ | ⟨-, log₁, t₁, hr, hput⟩
  · cases hput
    have hc : ChangesIn (t.placeOf log.dir) t (t.append log.file (line raw)) :=
      changesIn_append _ hp
    refine ⟨rfl, rfl, ?_, hc⟩
    rw [Placed, placeOf_of_base hc.base]
    exact hp
  · have o := opened_of_openFile hr
    have hp₁ := o.placed
    cases hput
    have hc : ChangesIn (t₁.placeOf log₁.dir) t₁ (t₁.append log₁.file (line raw)) :=
      changesIn_append _ hp₁
    have hdir : log₁.dir = log.dir := by rw [o.fresh]
    refine ⟨hdir, by rw [o.fresh], ?_, ?_⟩
    · rw [Placed, placeOf_of_base hc.base]
      exact hp₁
    · rw [placeOf_of_base o.base, hdir] at hc
      exact o.changesIn.trans hc

section Congr
variable {d e : Place} {t u : FileTree}

theorem openFile_congr {dir : Path} (threshold timestamp : Nat) (ht : t.directory dir = .ok e)
    (hu : u.directory dir = .ok e) (same : SameOutside d t u) (apart : ∀ n, ¬ d <+: e ++ [n]) :
    (∃ f, openFile dir threshold timestamp t = .error f ∧
      openFile dir threshold timestamp u = .error f) ∨
    ∃ log t' u', openFile dir threshold timestamp t = .ok (log, t') ∧
      openFile dir threshold timestamp u = .ok (log, u') ∧ SameOutside d t' u' := by
  have hn := same.node? _ (apart (fileName timestamp))
  unfold openFile entry
  rw [ht, hu]
  cases (dir.child (fileName timestamp)).fault? with
  | some f => exact .inl ⟨_, rfl, rfl⟩
  | none =>
    dsimp only [Except.map, Except.bind]
    unfold openAppend
    rw [hn]
    cases hf : t.node? (e ++ [fileName timestamp]) with
    | none =>
      refine .inr ⟨_, _, _, rfl, by rw [same.removals], ?_, ?_, fun p hp => ?_⟩
      · rw [insert_base, insert_base, same.base]
      · rw [insert_removals, insert_removals, same.removals]
      · have free : t.node? (e ++ [fileName timestamp]) ≠ some .directory := by
          rw [hf]
          simp
        rw [node?_insert_child (node?_of_directory ht) free,
          node?_insert_child (node?_of_directory hu) (hn ▸ free), same.node? p hp]
    | some n =>
      cases n with
      | directory => exact .inl ⟨_, rfl, rfl⟩
      | file g bs => exact .inr ⟨_, _, _, rfl, rfl, same⟩

/-- Recording depends on the directory of the log alone. -/
theorem record_congr {log : AppendLog} (now : Nat) (raw : String)
    (ht : t.directory log.dir = .ok e) (hu : u.directory log.dir = .ok e)
    (placed : log.file.place = e ++ [fileName log.timestamp]) (same : SameOutside d t u)
    (apart : ∀ n, ¬ d <+: e ++ [n]) :
    (∃ f, log.record now raw t = .error f ∧ log.record now raw u = .error f) ∨
    ∃ log' t' u', log.record now raw t = .ok (log', t') ∧ log.record now raw u = .ok (log', u') ∧
      SameOutside d t' u' := by
  unfold record
  by_cases hfull : log.threshold < log.entries
  · rw [if_pos hfull, if_pos hfull]
    rcases openFile_congr log.threshold (nextTimestamp now log.timestamp) ht hu same apart with
      ⟨f, h, h'⟩ | ⟨log₁, t₁, u₁, h, h', same₁⟩
    · refine .inl ⟨f, ?_, ?_⟩
      · rw [rotate, h]
      · rw [rotate, h']
    · have o := opened_of_openFile h
      have hplace : log₁.file.place = e ++ [fileName (nextTimestamp now log.timestamp)] := by
        rw [o.place, ← eq_placeOf_of_directory ht]
      refine .inr ⟨(log₁.put raw t₁).1, (log₁.put raw t₁).2, (log₁.put raw u₁).2, ?_, ?_, ?_⟩
      · rw [rotate, h]
      · rw [rotate, h']
        rfl
      · exact same₁.append (hplace ▸ apart _) _
  · rw [if_neg hfull, if_neg hfull]
    exact .inr ⟨_, _, _, rfl, rfl, same.append (placed ▸ apart _) _⟩

end Congr

end Keyline.AppendLog
