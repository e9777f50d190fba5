import Keyline.Proofs.Logs.Volumes
import Keyline.Proofs.Runs.Deeds

/-!
# What the log of a run holds

The entries of a log are the commands that changed the store and were answered without an error, in
the order in which they were handled. A command whose new volume could not be opened was applied but
is not among them; ticks and all that others do outside the log make no difference.
-/
namespace Keyline.Database

open FileTree

/-- The entry that a deed leaves in the log. -/
def logged? : Deed → Option String
  | .handled raw (.ok _) =>
    match Query.parse raw with
    | .ok q => if q.mutates then some raw else none
    | .error _ => none
  | _ => none

/-- The commands that change the store and were answered without an error. -/
def acknowledged (ds : List Deed) : List String := ds.filterMap logged?

theorem acknowledged_append (ds : List Deed) (d : Deed) :
    acknowledged (ds ++ [d]) = acknowledged ds ++ (logged? d).toList := by
  unfold acknowledged
  rw [List.filterMap_append]
  cases h : logged? d with
  | none => simp [h]
  | some raw => simp [h]

/-- The log of a database with this configuration holds the entries `es`. -/
structure Recorded (c : Config) (d : Place) (w : Worker) (es : List String) : Prop where
  config : w.database.config = c
  place : w.files.placeOf c.logDir = d
  sound : w.database.Sound w.files
  log : ∃ log full current, w.database.log = some log ∧ log.Consists w.files full current ∧
    (full ++ [current]).flatMap AppendLog.Volume.entries = es

/-- What may hold of a log, its files and entries: others who leave the files of the log alone leave
it true, and recording carries it on. -/
structure Lasting (P : AppendLog → FileTree → List String → Prop) : Prop where
  congr : ∀ {log : AppendLog} {t t' : FileTree} {es : List String}, log.Placed t →
    AppendLog.SameLogs (t.placeOf log.dir) t t' → P log t es → P log t' es
  record : ∀ {log log' : AppendLog} {now : Nat} {raw : String} {t t' : FileTree}
    {es : List String}, log.record now raw t = .ok (log', t') → P log t es →
    P log' t' (es ++ [raw])

/-- It holds of the log of a database with this configuration and the entries `es`. -/
structure Logging (P : AppendLog → FileTree → List String → Prop) (c : Config) (d : Place)
    (w : Worker) (es : List String) : Prop where
  config : w.database.config = c
  place : w.files.placeOf c.logDir = d
  sound : w.database.Sound w.files
  log : ∃ log, w.database.log = some log ∧ P log w.files es

section Logging
variable {P : AppendLog → FileTree → List String → Prop}

theorem Logging.congr {c : Config} {d : Place} {db db' : Database} {t t' : FileTree}
    {es : List String} (lasting : Lasting P) (h : Logging P c d ⟨db, t⟩ es)
    (same : AppendLog.SameLogs d t t') (hc : db'.config = c) (hl : db'.log = db.log)
    (hs : db'.Sound t') : Logging P c d ⟨db', t'⟩ es := by
  obtain ⟨hconfig, hplace, hsound, log, hlog, hP⟩ := h
  subst hconfig
  obtain ⟨hdir, -, placed⟩ := hsound.log log hlog
  refine ⟨hc, ?_, hs, log, ?_, ?_⟩
  · rw [placeOf_of_base same.base]
    exact hplace
  · rw [hl]
    exact hlog
  · apply lasting.congr placed _ hP
    rw [hdir, hplace]
    exact same

theorem sameLogs_of_ticking {db : Database} {now : Nat} {t t' : FileTree}
    {r : Except Failure (Option Path × Database)} (h : Ticking db now t r t') (s : db.Sound t) :
    AppendLog.SameLogs (t.placeOf db.config.logDir) t t' :=
  (h.changesIn s).sameFiles (Ne.symm (db.config.logDir_ne_snapshotDir t))

theorem logging_of_handling {c : Config} {d : Place} {db db' : Database} {now : Nat}
    {raw : String} {r : Except Failure Reply} {t t' : FileTree} {es : List String}
    (lasting : Lasting P) (h : Handling db now raw t r db' t') (k : Logging P c d ⟨db, t⟩ es) :
    Logging P c d ⟨db', t'⟩ (es ++ (logged? (.handled raw r)).toList) := by
  obtain ⟨hsound, hc, -⟩ := h.sound k.sound
  have hb := (h.changesIn k.sound).base
  have hplace : t'.placeOf c.logDir = d := by
    rw [placeOf_of_base hb]
    exact k.place
  obtain ⟨log, hlog, hP⟩ := k.log
  dsimp only at hlog
  cases h with
  | rejected e parsed =>
    simp only [logged?, parsed, Option.toList_none, List.append_nil]
    exact k
  | read q parsed mutates =>
    simp only [logged?, parsed, mutates, Bool.false_eq_true, if_false, Option.toList_none,
      List.append_nil]
    exact ⟨k.config, hplace, hsound, log, hlog, hP⟩
  | unlogged q parsed mutates logged =>
    rw [hlog] at logged
    simp at logged
  | recorded q log₁ log' _ parsed mutates logged record =>
    rw [hlog] at logged
    cases logged
    simp only [logged?, parsed, mutates, if_true, Option.toList_some]
    exact ⟨k.config, hplace, hsound, log', rfl, lasting.record record hP⟩
  | unrecorded q log₁ e parsed mutates logged record =>
    simp only [logged?, Option.toList_none, List.append_nil]
    exact ⟨k.config, hplace, hsound, log, hlog, hP⟩

theorem logging_of_step {c : Config} {d : Place} {v w : Worker} {e : Deed} {es : List String}
    (lasting : Lasting P) (step : Step (AppendLog.SameLogs d) v e w) (k : Logging P c d v es) :
    Logging P c d w (es ++ (logged? e).toList) := by
  cases step with
  | handled db t now raw => exact logging_of_handling lasting (db.handling now raw t) k
  | saved db db' t t' now path tick =>
    have h := db.ticking now t
    rw [tick] at h
    obtain ⟨hsound, hc, hl, -⟩ := h.sound k.sound
    have hsame := sameLogs_of_ticking h k.sound
    rw [show db.config = c from k.config, k.place] at hsame
    simpa [logged?] using k.congr lasting hsame (hc.trans k.config) hl hsound
  | idle db db' t t' now tick =>
    have h := db.ticking now t
    rw [tick] at h
    cases h
    simpa [logged?] using k
  | failed db t t' now e tick =>
    have h := db.ticking now t
    rw [tick] at h
    have hsame := sameLogs_of_ticking h k.sound
    rw [show db.config = c from k.config, k.place] at hsame
    simpa [logged?] using k.congr lasting hsame k.config rfl (k.sound.congr hsame.base)
  | others db t t' changed =>
    simpa [logged?] using k.congr lasting changed k.config rfl (k.sound.congr changed.base)

theorem logging_of_run {c : Config} {d : Place} {v w : Worker} {ds : List Deed}
    {es : List String} (lasting : Lasting P) (run : Run (AppendLog.SameLogs d) v ds w)
    (k : Logging P c d v es) : Logging P c d w (es ++ acknowledged ds) := by
  induction run with
  | start => simpa [acknowledged] using k
  | step run step ih =>
    rw [acknowledged_append, ← List.append_assoc]
    exact logging_of_step lasting step ih

end Logging

/-- The entries `es` lie in volumes, of which all but the last are full. -/
def InVolumes (log : AppendLog) (t : FileTree) (es : List String) : Prop :=
  ∃ full current, log.Consists t full current ∧
    (full ++ [current]).flatMap AppendLog.Volume.entries = es

theorem lasting_inVolumes : Lasting InVolumes := by
  refine ⟨?_, ?_⟩
  · rintro log t t' es - same ⟨full, current, hcon, hes⟩
    exact ⟨full, current, hcon.congr same, hes⟩
  · rintro log log' now raw t t' es record ⟨full, current, hcon, rfl⟩
    obtain ⟨full', current', hcon', -, hes'⟩ := hcon.record record
    exact ⟨full', current', hcon', hes'⟩

theorem recorded_of_run {c : Config} {d : Place} {v w : Worker} {ds : List Deed}
    {es : List String} (run : Run (AppendLog.SameLogs d) v ds w) (k : Recorded c d v es) :
    Recorded c d w (es ++ acknowledged ds) := by
  obtain ⟨log, full, current, hlog, hcon⟩ := k.log
  obtain ⟨hconfig, hplace, hsound, log', hlog', full', current', hcon'⟩ :=
    logging_of_run lasting_inVolumes run
      ⟨k.config, k.place, k.sound, log, hlog, full, current, hcon⟩
  exact ⟨hconfig, hplace, hsound, log', full', current', hlog', hcon'⟩

theorem recorded_of_start {c : Config} {now : Nat} {db : Database} {t t' : FileTree}
    (start : Database.start c now t = (.ok db, t')) (enabled : c.logEnabled = true)
    (empty : ∀ n g bs,
      t.node? (t.placeOf c.logDir ++ [AppendLog.fileName n]) ≠ some (.file g bs)) :
    Recorded c (t.placeOf c.logDir) ⟨db, t'⟩ [] := by
  have hb := (changesIn_of_start start).base
  obtain ⟨q, t₁, hm, -, -, hc, -, ⟨hno, -⟩ | ⟨-, log, hlog, hstart⟩⟩ := start_ok start
  · rw [enabled] at hno
    simp at hno
  · have g := grows_makeDirectories t c.dataDir
    rw [hm] at g
    obtain ⟨t₂, g', o⟩ := AppendLog.start_ok hstart
    have hplace := placeOf_of_base (g.trans g').base c.logDir
    refine ⟨hc, ?_, sound_of_start start, log, [], _, hlog, AppendLog.consists_of_opened o ?_, rfl⟩
    · exact placeOf_of_base hb c.logDir
    · intro n f bs hf
      rw [hplace, (g.trans g').file_iff] at hf
      exact empty n f bs hf

/-- The log of a run holds exactly the acknowledged commands, a line each, in volumes of which all
but the last are full. -/
theorem log_holds_acknowledged {c : Config} {now : Nat} {db : Database} {t t' : FileTree}
    {ds : List Deed} {w : Worker} (enabled : c.logEnabled = true)
    (empty : ∀ n g bs,
      t.node? (t.placeOf c.logDir ++ [AppendLog.fileName n]) ≠ some (.file g bs))
    (start : Database.start c now t = (.ok db, t'))
    (run : Run (AppendLog.SameLogs (t.placeOf c.logDir)) ⟨db, t'⟩ ds w) :
    ∃ log full current, w.database.log = some log ∧ log.dir = c.logDir ∧
      log.threshold = c.rotationThreshold ∧ log.Consists w.files full current ∧
      (∀ v ∈ full ++ [current], ∃ g,
        w.files.node? (w.files.placeOf c.logDir ++ [AppendLog.fileName v.timestamp]) =
          some (.file g (v.entries.flatMap fun raw => Utf8.encode (raw ++ "\n")))) ∧
      (full ++ [current]).flatMap AppendLog.Volume.entries = acknowledged ds ∧
      (full ++ [current]).flatMap AppendLog.Volume.content =
        (acknowledged ds).flatMap fun raw => Utf8.encode (raw ++ "\n") := by
  obtain ⟨hc, -, hsound, log, full, current, hlog, hcon, hes⟩ :=
    recorded_of_run run (recorded_of_start start enabled empty)
  obtain ⟨hdir, hth, -⟩ := hsound.log log hlog
  rw [hc] at hdir hth
  rw [List.nil_append] at hes
  refine ⟨log, full, current, hlog, hdir, hth, hcon, fun v hv => ?_, hes, ?_⟩
  · rw [← hdir]
    exact hcon.at hv
  · rw [← hes, List.flatMap_assoc]
    rfl

/-- Two values set in one millisecond, one entry to a volume. -/
theorem log_holds_two_values :
    let c : Config := { dataDir := ⟨"/d"⟩, rotationThreshold := 0 }
    let setV : Bytes := [115, 101, 116, 32, 107, 32, 118, 10]
    let setW : Bytes := [115, 101, 116, 32, 107, 32, 119, 10]
    ∃ db t ds w, c.logEnabled = true ∧
      (∀ n g bs, FileTree.empty.node? (FileTree.empty.placeOf c.logDir ++ [AppendLog.fileName n]) ≠
        some (.file g bs)) ∧
      Database.start c 1600000000000 .empty = (.ok db, t) ∧
      Run (AppendLog.SameLogs (FileTree.empty.placeOf c.logDir)) ⟨db, t⟩ ds w ∧
      w.files.node? ["d", "logs", "1600000000000.kvslog"] = some (.file 0 setV) ∧
      w.files.node? ["d", "logs", "1600000000001.kvslog"] = some (.file 0 setW) ∧
      ∃ log full current, w.database.log = some log ∧ log.threshold = 0 ∧
        log.Consists w.files full current ∧
        (full ++ [current]).flatMap AppendLog.Volume.entries = ["set k v", "set k w"] ∧
        (full ++ [current]).flatMap AppendLog.Volume.content = setV ++ setW := by
  intro c setV setW
  let db₁ : Database := ⟨c, ∅, ⟨⟨"/d/snapshots"⟩, 0⟩, some ⟨⟨"/d/logs"⟩, 0, 1600000000000,
    ⟨["d", "logs", "1600000000000.kvslog"], 0⟩, 0⟩, 0⟩
  let t₁ := (Database.start c 1600000000000 .empty).2
  let h₂ := db₁.handle 1600000000000 "set k v" t₁
  let h₃ := h₂.database.handle 1600000000000 "set k w" h₂.files
  have empty (n : Nat) (g : Nat) (bs : Bytes) : FileTree.empty.node?
      (FileTree.empty.placeOf c.logDir ++ [AppendLog.fileName n]) ≠ some (.file g bs) := by
    simp [node?, FileTree.empty, find?]
  have start : Database.start c 1600000000000 .empty = (.ok db₁, t₁) :=
    Prod.ext (by decide +kernel) rfl
  have run : Run (AppendLog.SameLogs (FileTree.empty.placeOf c.logDir)) ⟨db₁, t₁⟩
      [.handled "set k v" h₂.result, .handled "set k w" h₃.result] ⟨h₃.database, h₃.files⟩ :=
    .step (.step (.start _) (.handled db₁ t₁ 1600000000000 "set k v"))
      (.handled h₂.database h₂.files 1600000000000 "set k w")
  obtain ⟨log, full, current, hlog, -, hth, hcon, -, hes, hbytes⟩ :=
    log_holds_acknowledged rfl empty start run
  have hr₂ : h₂.result = .ok (.changed true) := by decide +kernel
  have hr₃ : h₃.result = .ok (.changed false) := by decide +kernel
  have hack : acknowledged [.handled "set k v" h₂.result, .handled "set k w" h₃.result] =
      ["set k v", "set k w"] := by
    rw [hr₂, hr₃]
    decide +kernel
  rw [hack] at hes hbytes
  refine ⟨db₁, t₁, _, _, rfl, empty, start, run, by decide +kernel, by decide +kernel, log, full,
    current, hlog, hth, hcon, hes, ?_⟩
  rw [hbytes]
  decide +kernel

end Keyline.Database
