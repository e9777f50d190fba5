import Keyline.Proofs.Runs.Deeds

/-!
# Ticks make no difference

Two workers are alike if they answer alike: they have the same store and the same log, and if a log
is open their files differ at most in the snapshot directory. Handling a command keeps workers alike
and gives the same result; a tick of one of them keeps them alike, whether or not it saves anything.
So leaving out all ticks changes no reply, no state and no log.
-/
namespace Keyline

open FileTree

/-- A directory is reached from the one above. -/
theorem FileTree.walk_of_directory_child {t : FileTree} {p : Path} {e : Place} {n : String}
    (hn : Path.IsName n) (h0 : n ≠ ".") (h1 : n ≠ "..") (h : t.directory (p.child n) = .ok e) :
    ∃ d, t.walk (t.origin p) p.names = .ok d ∧ t.node? d = some .directory ∧ e = d ++ [n] := by
  obtain ⟨-, hw, -⟩ := directory_eq_ok_iff.1 h
  rw [origin_child hn, Path.names_child hn, walk_append] at hw
  cases hd : t.walk (t.origin p) p.names with
  | error f => simp [hd, Except.bind] at hw
  | ok d =>
    rw [hd] at hw
    simp only [Except.bind, walk] at hw
    cases hs : t.step d n with
    | error f => simp [hs] at hw
    | ok q =>
      rw [hs] at hw
      cases hw
      refine ⟨d, rfl, node?_of_step hs, ?_⟩
      have := eq_climb_of_step hs
      rwa [climb, if_neg h0, if_neg h1] at this

/-- Where the directory above is there, a write changes nothing outside the archive. -/
theorem Archive.sameOutside_of_write {a : Archive} {p : Path} {d : Place} {n : String}
    (now : Nat) (s : Store) {t : FileTree} (ha : a.dir = p.child n) (hn : Path.IsName n)
    (h0 : n ≠ ".") (h1 : n ≠ "..") (h2 : n.utf8ByteSize ≤ nameLimit)
    (hw : t.walk (t.origin p) p.names = .ok d) (hd : t.node? d = some .directory) :
    SameOutside (d ++ [n]) t (a.write now s t).2 := by
  have hplace : t.placeOf a.dir = d ++ [n] := by
    rw [ha, placeOf_child hn h0 h1, placeOf, ← eq_foldl_climb_of_walk hw]
  have hmade : SameOutside (d ++ [n]) t (a.made t) := by
    rw [made, ha]
    rcases makeDirectories_child hn h0 h1 h2 hw hd with he | ⟨-, he⟩
    · rw [he]
      exact .refl _ _
    · rw [he]
      refine ⟨insert_base _ _ _, insert_removals _ _ _, fun q hq => ?_⟩
      rw [node?_insert (fits_directory hd), if_neg]
      rintro rfl
      exact hq (List.prefix_refl _)
  have hne {q : Place} (hq : ¬ d ++ [n] <+: q) (m : String) : d ++ [n] ++ [m] ≠ q := by
    rintro rfl
    exact hq (List.prefix_append _ _)
  rcases h : a.write now s t with ⟨e | ⟨path, a'⟩, t'⟩
  · rcases write_error h with rfl | ⟨e, b⟩
    · exact hmade
    · obtain ⟨g, bs, hb⟩ := b.node?
      obtain rfl : e = d ++ [n] := by rw [place_of_made b.directory, hplace]
      refine hmade.trans ⟨b.base, b.removals, fun q hq => ?_⟩
      rw [hb, if_neg (hne hq _)]
  · obtain ⟨-, -, e, w⟩ := write_ok h
    obtain ⟨g, hg⟩ := w.node?
    obtain rfl : e = d ++ [n] := by rw [place_of_made w.directory, hplace]
    refine hmade.trans ⟨w.base, w.removals, fun q hq => ?_⟩
    rw [hg, if_neg (hne hq _), if_neg (hne hq _)]

/-- The names of a path lead to a directory; where it has none it is followed nowhere. -/
def FileTree.Home (t : FileTree) (p : Path) : Prop :=
  ∃ d, t.walk (t.origin p) p.names = .ok d ∧ (p.names ≠ [] → t.node? d = some .directory)

theorem FileTree.home_of_makeDirectories {t t' : FileTree} {p : Path} {d : Place}
    (h : t.makeDirectories p = (.ok d, t')) : t'.Home p := by
  obtain ⟨-, hw, hd⟩ := directory_of_makeDirectories h
  exact ⟨d, hw, fun hn => node?_of_directory (hd hn)⟩

theorem FileTree.Keeps.home {t t' : FileTree} {p : Path} (k : Keeps t t') (h : t.Home p) :
    t'.Home p := by
  obtain ⟨d, hw, hd⟩ := h
  refine ⟨d, ?_, fun hn => k.directory d (hd hn)⟩
  rw [origin_of_base k.base]
  by_cases hn : p.names = []
  · rw [hn] at hw ⊢
    exact hw
  · exact k.walk hw (hd hn)

theorem Archive.sameOutside_of_home {a : Archive} {p : Path} {n : String} (now : Nat) (s : Store)
    {t : FileTree} (ha : a.dir = p.child n) (hn : Path.IsName n) (h0 : n ≠ ".") (h1 : n ≠ "..")
    (h2 : n.utf8ByteSize ≤ nameLimit) (home : t.Home p) :
    SameOutside (t.placeOf a.dir) t (a.write now s t).2 := by
  obtain ⟨d, hw, hd⟩ := home
  cases hb : t.barrier d with
  | none =>
    have hplace : t.placeOf a.dir = d ++ [n] := by
      rw [ha, placeOf_child hn h0 h1, placeOf, ← eq_foldl_climb_of_walk hw]
    rw [hplace]
    exact sameOutside_of_write now s ha hn h0 h1 h2 hw (barrier_eq_none_iff.1 hb)
  | some f =>
    -- only where relative paths start, and nothing is made there
    have hnames : p.names = [] := by
      apply Classical.byContradiction
      intro hne
      rw [barrier_eq_none_iff.2 (hd hne)] at hb
      simp at hb
    rw [hnames] at hw
    cases hw
    have hmake : ∃ f', t.makeDirectories a.dir = (.error f', t) := by
      rw [makeDirectories, ha]
      cases (p.child n).fault? with
      | some f' => exact ⟨f', rfl⟩
      | none =>
        rw [origin_child hn, Path.names_child hn, hnames]
        exact makeFrom_of_barrier hb
    obtain ⟨f', hmake⟩ := hmake
    rw [write, hmake]
    exact .refl _ _

theorem Database.Ticking.sameOutside {db : Database} {now : Nat} {t t' : FileTree}
    {r : Except Failure (Option Path × Database)} (h : Ticking db now t r t') (sound : db.Sound t)
    (home : t.Home db.config.dataDir) : SameOutside (t.placeOf db.config.snapshotDir) t t' := by
  have same := Archive.sameOutside_of_home now db.store sound.archive
    (by decide) (by decide) (by decide) (by decide) home
  rw [sound.archive] at same
  cases h with
  | idle => exact .refl _ _
  | saved path archive t' unsaved write =>
    rw [write] at same
    exact same
  | failed e t' unsaved write =>
    rw [write] at same
    exact same

namespace Worker

/-- If a log is open, its directory is where its path leads. -/
structure Settled (w : Worker) : Prop where
  sound : w.database.Sound w.files
  directory : w.database.log.isSome → w.files.directory w.database.config.logDir =
    .ok (w.files.placeOf w.database.config.logDir)

theorem settled_of_start {c : Config} {now : Nat} {db : Database} {t t' : FileTree}
    (start : Database.start c now t = (.ok db, t')) : Settled ⟨db, t'⟩ := by
  refine ⟨Database.sound_of_start start, fun hlog => ?_⟩
  obtain ⟨q, t₁, -, -, -, rfl, -, ⟨-, hno, -⟩ | ⟨-, log, hl, hstart⟩⟩ := Database.start_ok start
  · rw [hno] at hlog
    simp at hlog
  · obtain ⟨t₂, -, o⟩ := AppendLog.start_ok hstart
    dsimp only
    rw [placeOf_of_base o.base]
    exact o.keeps.directory_eq o.directory

/-- Workers that differ at most in what was saved. -/
structure Alike (v w : Worker) : Prop where
  left : v.Settled
  right : w.Settled
  config : w.database.config = v.database.config
  store : w.database.store = v.database.store
  log : w.database.log = v.database.log
  files : v.database.log.isSome →
    SameOutside (v.files.placeOf v.database.config.snapshotDir) v.files w.files

theorem Settled.alike {w : Worker} (h : w.Settled) : Alike w w :=
  ⟨h, h, rfl, rfl, rfl, fun _ => .refl _ _⟩

/-- Files of the log do not lie below the snapshot directory. -/
theorem logs_apart (c : Config) (t : FileTree) (n : String) :
    ¬ t.placeOf c.snapshotDir <+: t.placeOf c.logDir ++ [n] := by
  rw [c.placeOf_snapshotDir, c.placeOf_logDir]
  intro h
  have := List.prefix_of_prefix_length_le h (List.prefix_append _ [n]) (by simp)
  simp [List.prefix_append_right_inj] at this

def handled (w : Worker) (now : Nat) (raw : String) : Worker :=
  ⟨(w.database.handle now raw w.files).database, (w.database.handle now raw w.files).files⟩

/-- A command has one reply; a failure is reported before it. -/
theorem command_eq {δ : Type} (w : Worker) (now : Nat) (raw : String) (sender : δ) :
    ∃ reports : List String, w.command now raw sender = (w.handled now raw,
      reports.map .report ++
        [.reply sender (Reply.ofResult (w.database.handle now raw w.files).result).text]) ∧
      (reports = [] → ∃ reply, (w.database.handle now raw w.files).result = .ok reply) := by
  rw [command, handled]
  split
  · next reply _ _ h =>
    rw [h]
    exact ⟨[], rfl, fun _ => ⟨reply, rfl⟩⟩
  · next h =>
    rw [h]
    exact ⟨[_], rfl, nofun⟩

theorem outputs_tick (δ : Type) (w : Worker) (now : Nat) :
    ∃ reports : List String, (w.tick now : Worker × List (Output δ)).2 = reports.map .report := by
  rw [tick]
  split
  · exact ⟨[], rfl⟩
  · exact ⟨[_], rfl⟩

theorem store_tick (δ : Type) (w : Worker) (now : Nat) :
    (w.tick now : Worker × List (Output δ)).1.database.store = w.database.store := by
  have ticking := w.database.ticking now w.files
  rw [tick]
  split
  · next ht =>
    rw [ht] at ticking
    cases ticking <;> rfl
  · rfl

theorem Settled.handled {w : Worker} (h : w.Settled) (now : Nat) (raw : String) :
    (w.handled now raw).Settled := by
  have hd := w.database.handling now raw w.files
  obtain ⟨hs, hc, -⟩ := hd.sound h.sound
  refine ⟨hs, fun hlog => ?_⟩
  have hlog' : w.database.log.isSome := by
    rw [h.sound.logged, ← hc, ← hs.logged]
    exact hlog
  have hdir := hd.keeps.directory_eq (h.directory hlog')
  rw [Worker.handled, hc, placeOf_of_base hd.keeps.base]
  exact hdir

theorem record_alike {v w : Worker} (a : Alike v w) (now : Nat) (raw : String) {log : AppendLog}
    (hlog : v.database.log = some log) :
    (∃ e, log.record now raw v.files = .error e ∧ log.record now raw w.files = .error e) ∨
    ∃ log' t u, log.record now raw v.files = .ok (log', t) ∧
      log.record now raw w.files = .ok (log', u) ∧
      SameOutside (v.files.placeOf v.database.config.snapshotDir) t u := by
  have hsome : v.database.log.isSome := by
    rw [hlog]
    rfl
  have same := a.files hsome
  obtain ⟨hdir, -, hplaced⟩ := a.left.sound.log log hlog
  have ht := a.left.directory hsome
  have hu := a.right.directory (a.log ▸ hsome)
  rw [a.config, placeOf_of_base same.base] at hu
  rw [← hdir] at ht hu
  apply AppendLog.record_congr now raw ht hu hplaced same
  intro n
  rw [hdir]
  exact logs_apart _ _ n

/-- Workers stay alike whose databases have the same store and log once a command was handled. -/
theorem Alike.handled {v w : Worker} (a : Alike v w) {now : Nat} {raw : String}
    {x y : Database.Handled} (hv : v.database.handle now raw v.files = x)
    (hw : w.database.handle now raw w.files = y) (store : y.database.store = x.database.store)
    (log : y.database.log = x.database.log) (files : x.database.log.isSome →
      SameOutside (x.files.placeOf x.database.config.snapshotDir) x.files y.files) :
    Alike (v.handled now raw) (w.handled now raw) := by
  subst hv hw
  obtain ⟨-, hc, -⟩ := (v.database.handling now raw v.files).sound a.left.sound
  obtain ⟨-, hc', -⟩ := (w.database.handling now raw w.files).sound a.right.sound
  exact ⟨a.left.handled now raw, a.right.handled now raw, hc'.trans (a.config.trans hc.symm),
    store, log, files⟩

theorem alike_handled {v w : Worker} (a : Alike v w) (now : Nat) (raw : String) :
    (w.database.handle now raw w.files).result = (v.database.handle now raw v.files).result ∧
      Alike (v.handled now raw) (w.handled now raw) := by
  cases parsed : Query.parse raw with
  | error e =>
    have hv : v.database.handle now raw v.files = _ := Database.handle_rejected parsed
    have hw : w.database.handle now raw w.files = _ := Database.handle_rejected parsed
    exact ⟨by rw [hv, hw], a.handled hv hw a.store a.log a.files⟩
  | ok q =>
    have happly : w.database.store.apply q = v.database.store.apply q := by rw [a.store]
    cases mutates : q.mutates with
    | false =>
      have hv : v.database.handle now raw v.files = _ := Database.handle_read parsed mutates
      have hw : w.database.handle now raw w.files = _ := Database.handle_read parsed mutates
      rw [happly] at hw
      exact ⟨by rw [hv, hw], a.handled hv hw rfl a.log a.files⟩
    | true =>
      cases hlog : v.database.log with
      | none =>
        have hv : v.database.handle now raw v.files = _ :=
          Database.handle_unlogged parsed mutates hlog
        have hw : w.database.handle now raw w.files = _ :=
          Database.handle_unlogged parsed mutates (a.log.trans hlog)
        rw [happly] at hw
        exact ⟨by rw [hv, hw], a.handled hv hw rfl a.log a.files⟩
      | some log =>
        rcases record_alike a now raw hlog with ⟨e, hr, hr'⟩ | ⟨log', t, u, hr, hr', same⟩
        · have hv : v.database.handle now raw v.files = _ :=
            Database.handle_unrecorded parsed mutates hlog hr
          have hw : w.database.handle now raw w.files = _ :=
            Database.handle_unrecorded parsed mutates (a.log.trans hlog) hr'
          rw [happly] at hw
          exact ⟨by rw [hv, hw], a.handled hv hw rfl a.log a.files⟩
        · have hv : v.database.handle now raw v.files = _ :=
            Database.handle_recorded parsed mutates hlog hr
          have hw : w.database.handle now raw w.files = _ :=
            Database.handle_recorded parsed mutates (a.log.trans hlog) hr'
          rw [happly] at hw
          refine ⟨by rw [hv, hw], a.handled hv hw rfl rfl fun _ => ?_⟩
          dsimp only
          rw [placeOf_of_base (AppendLog.keeps_of_record hr).base]
          exact same

theorem sameOutside_of_ticking {w : Worker} (h : w.Settled) (hlog : w.database.log.isSome)
    {now : Nat} {r : Except Failure (Option Path × Database)} {t : FileTree}
    (ticking : w.database.Ticking now w.files r t) :
    SameOutside (w.files.placeOf w.database.config.snapshotDir) w.files t := by
  obtain ⟨d, hw, hd, -⟩ := walk_of_directory_child (by decide) (by decide) (by decide)
    (h.directory hlog)
  exact ticking.sameOutside h.sound ⟨d, hw, fun _ => hd⟩

theorem Settled.congr {w : Worker} (h : w.Settled) {db : Database} {t : FileTree}
    (hc : db.config = w.database.config) (hl : db.log = w.database.log) (hs : db.Sound t)
    (hk : Keeps w.files t) : Settled ⟨db, t⟩ := by
  refine ⟨hs, fun hlog => ?_⟩
  dsimp only at hlog ⊢
  rw [hl] at hlog
  rw [hc, placeOf_of_base hk.base]
  exact hk.directory_eq (h.directory hlog)

/-- A tick keeps a worker alike to what it was. -/
theorem alike_tick {δ : Type} {v w : Worker} (a : Alike v w) (now : Nat) :
    Alike v (w.tick now : Worker × List (Output δ)).1 := by
  have h := w.database.ticking now w.files
  have hk := h.keeps
  have hfiles (hlog : v.database.log.isSome) :
      SameOutside (v.files.placeOf v.database.config.snapshotDir) v.files
        (w.database.tick now w.files).2 := by
    have same := a.files hlog
    have hout := sameOutside_of_ticking a.right (a.log ▸ hlog) h
    rw [a.config, placeOf_of_base same.base] at hout
    exact same.trans hout
  rw [tick]
  rcases ht : w.database.tick now w.files with ⟨e | ⟨path, db⟩, t⟩
  · rw [ht] at h hk hfiles
    exact ⟨a.left, a.right.congr rfl rfl (a.right.sound.congr hk.base) hk, a.config, a.store,
      a.log, hfiles⟩
  · rw [ht] at h hk hfiles
    obtain ⟨hs, hc, hl, hst⟩ := h.sound a.right.sound
    exact ⟨a.left, a.right.congr hc hl hs hk, hc.trans a.config, hst.trans a.store,
      hl.trans a.log, hfiles⟩

theorem settled_of_step {v w : Worker} {d : Database.Deed} (h : v.Settled)
    (step : Database.Step Keeps v d w) : w.Settled := by
  cases step with
  | handled db t now raw => exact h.handled now raw
  | saved db db' t t' now path tick =>
    have ht := db.ticking now t
    rw [tick] at ht
    obtain ⟨hs, hc, hl, -⟩ := ht.sound h.sound
    exact h.congr hc hl hs ht.keeps
  | idle db db' t t' now tick =>
    have ht := db.ticking now t
    rw [tick] at ht
    obtain ⟨hs, hc, hl, -⟩ := ht.sound h.sound
    exact h.congr hc hl hs ht.keeps
  | failed db t t' now e tick =>
    have ht := db.ticking now t
    rw [tick] at ht
    exact h.congr rfl rfl (h.sound.congr ht.keeps.base) ht.keeps
  | others db t t' changed => exact h.congr rfl rfl (h.sound.congr changed.base) changed

theorem settled_of_run {v w : Worker} {ds : List Database.Deed} (h : v.Settled)
    (run : Database.Run Keeps v ds w) : w.Settled := by
  induction run with
  | start => exact h
  | step run step ih => exact settled_of_step ih step

end Worker
end Keyline
