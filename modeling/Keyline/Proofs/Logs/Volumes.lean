import Keyline.Proofs.Logs.Recording
import Keyline.Proofs.Wire.Lines

/-!
# The volumes of a log

A log is kept in volumes, one file each, in the order of their timestamps. All but the last are
full: they hold one entry more than the threshold. Recording puts an entry behind the last volume
or, where that is full, into a new one of a later timestamp; a volume once full is never touched
again.

The files of a log at a place are put in the order of their timestamps, in one way only. Cut into
lines at line feeds they give the entries of its volumes, as long as no entry has a line feed in it.
-/
namespace Keyline.AppendLog

open FileTree

structure Volume where
  timestamp : Nat
  entries : List String

def Volume.content (v : Volume) : Bytes := v.entries.flatMap line

abbrev SameLogs (d : Place) (t t' : FileTree) : Prop :=
  SameFiles (fun m => ∃ n, m = fileName n) d t t'

def Volume.At (v : Volume) (t : FileTree) (d : Place) : Prop :=
  ∃ g, t.node? (d ++ [fileName v.timestamp]) = some (.file g v.content)

/-- A log consists of the volumes `full` and the one in use, and of nothing else. -/
structure Consists (log : AppendLog) (t : FileTree) (full : List Volume) (current : Volume) :
    Prop where
  placed : log.Placed t
  timestamp : current.timestamp = log.timestamp
  entries : current.entries.length = log.entries
  file : t.node? log.file.place = some (.file log.file.generation current.content)
  increasing : (full ++ [current]).Pairwise fun v w => v.timestamp < w.timestamp
  full_length : ∀ v ∈ full, v.entries.length = log.threshold + 1
  length_le : current.entries.length ≤ log.threshold + 1
  at_place : ∀ v ∈ full, v.At t (t.placeOf log.dir)
  only : ∀ n g bs, t.node? (t.placeOf log.dir ++ [fileName n]) = some (.file g bs) →
    ∃ v ∈ full ++ [current], v.timestamp = n

section Consists
variable {log log' : AppendLog} {t t' : FileTree} {full : List Volume} {current : Volume}

theorem Consists.le (h : Consists log t full current) {v : Volume}
    (hv : v ∈ full ++ [current]) : v.timestamp ≤ log.timestamp := by
  rw [← h.timestamp]
  rcases List.mem_append.1 hv with hv | hv
  · exact Nat.le_of_lt ((List.pairwise_append.1 h.increasing).2.2 v hv _ List.mem_cons_self)
  · obtain rfl := List.mem_singleton.1 hv
    exact Nat.le_refl _

theorem Consists.at (h : Consists log t full current) {v : Volume}
    (hv : v ∈ full ++ [current]) : v.At t (t.placeOf log.dir) := by
  rcases List.mem_append.1 hv with hv | hv
  · exact h.at_place v hv
  · rw [List.mem_singleton.1 hv]
    refine ⟨log.file.generation, ?_⟩
    rw [h.timestamp, ← h.placed]
    exact h.file

theorem Consists.vacant (h : Consists log t full current) {n : Nat} (hn : log.timestamp < n)
    (g : Nat) (bs : Bytes) : t.node? (t.placeOf log.dir ++ [fileName n]) ≠ some (.file g bs) := by
  intro hf
  obtain ⟨v, hv, rfl⟩ := h.only n g bs hf
  exact absurd (h.le hv) (Nat.not_le.2 hn)

theorem Consists.congr (h : Consists log t full current)
    (same : SameLogs (t.placeOf log.dir) t t') : Consists log t' full current := by
  have hp := h.placed
  rw [Placed] at hp
  have hb := placeOf_of_base same.base log.dir
  refine ⟨?_, h.timestamp, h.entries, ?_, h.increasing, h.full_length, h.length_le, ?_, ?_⟩
  · rw [Placed, hb, hp]
  · have hf := h.file
    rw [hp] at hf ⊢
    exact (same.file_iff _ ⟨_, rfl⟩ _ _).2 hf
  · intro v hv
    obtain ⟨g, hg⟩ := h.at_place v hv
    rw [hb]
    exact ⟨g, (same.file_iff _ ⟨_, rfl⟩ _ _).2 hg⟩
  · intro n g bs hf
    rw [hb] at hf
    exact h.only n g bs ((same.file_iff _ ⟨_, rfl⟩ _ _).1 hf)

theorem consists_of_opened {dir : Path} {threshold timestamp : Nat}
    (o : Opened dir threshold timestamp log t t')
    (empty : ∀ n g bs, t.node? (t.placeOf dir ++ [fileName n]) ≠ some (.file g bs)) :
    Consists log t' [] ⟨timestamp, []⟩ := by
  have hfile := o.vacant (by rw [o.place]; exact empty timestamp)
  have hdir : log.dir = dir := by rw [o.fresh]
  have hts : log.timestamp = timestamp := by rw [o.fresh]
  refine ⟨o.placed, hts.symm, by rw [o.fresh]; rfl, hfile, by simp, by simp, by simp, by simp, ?_⟩
  intro n g bs hf
  rw [placeOf_of_base o.base, hdir, o.node?] at hf
  split at hf
  · next he =>
    rw [o.place] at he
    have := fileName_injective (List.append_singleton_inj.1 he).2
    exact ⟨_, List.mem_singleton_self _, this⟩
  · exact absurd hf (empty n g bs)

/-- A new volume is begun where the last one is full. -/
theorem Consists.rotate {now : Nat} (h : Consists log t full current)
    (hfull : log.threshold < log.entries) (hr : log.rotate now t = .ok (log', t')) :
    Consists log' t' (full ++ [current]) ⟨log'.timestamp, []⟩ ∧ log'.dir = log.dir ∧
      log'.threshold = log.threshold ∧ log'.entries = 0 := by
  have o := opened_of_openFile hr
  have hlater := lt_nextTimestamp now log.timestamp
  have hdir : log'.dir = log.dir := by rw [o.fresh]
  have hts : log'.timestamp = nextTimestamp now log.timestamp := by rw [o.fresh]
  have hth : log'.threshold = log.threshold := by rw [o.fresh]
  have hb := placeOf_of_base o.base log.dir
  have hfile := o.vacant (by rw [o.place]; exact h.vacant hlater)
  have hother {n : Nat} (hn : nextTimestamp now log.timestamp ≠ n) :
      t'.node? (t.placeOf log.dir ++ [fileName n]) =
        t.node? (t.placeOf log.dir ++ [fileName n]) := by
    rw [o.node?, o.place, if_neg (place_ne hn)]
  refine ⟨⟨o.placed, rfl, by rw [o.fresh]; rfl, hfile, ?_, ?_, by simp, ?_, ?_⟩, hdir, hth,
    by rw [o.fresh]⟩
  · rw [List.pairwise_append]
    refine ⟨h.increasing, List.pairwise_singleton _ _, fun v hv w hw => ?_⟩
    rw [List.mem_singleton.1 hw]
    dsimp only
    rw [hts]
    exact Nat.lt_of_le_of_lt (h.le hv) hlater
  · intro v hv
    rw [hth]
    rcases List.mem_append.1 hv with hv | hv
    · exact h.full_length v hv
    · rw [List.mem_singleton.1 hv]
      have h1 := h.length_le
      have h2 := h.entries
      omega
  · intro v hv
    obtain ⟨g, hg⟩ := h.at hv
    refine ⟨g, ?_⟩
    rw [hdir, hb, hother, hg]
    exact Nat.ne_of_gt (Nat.lt_of_le_of_lt (h.le hv) hlater)
  · intro n g bs hf
    rw [hdir, hb] at hf
    by_cases hn : nextTimestamp now log.timestamp = n
    · exact ⟨_, List.mem_append_right _ (List.mem_singleton_self _), hts.trans hn⟩
    · rw [hother hn] at hf
      obtain ⟨v, hv, hvn⟩ := h.only n g bs hf
      exact ⟨v, List.mem_append_left _ hv, hvn⟩

theorem Consists.put (raw : String) (h : Consists log t full current)
    (hroom : log.entries ≤ log.threshold) :
    Consists (log.put raw t).1 (log.put raw t).2 full
      ⟨current.timestamp, current.entries ++ [raw]⟩ := by
  have hp := h.placed
  rw [Placed] at hp
  have node := node?_put raw hp h.file
  have hb : (log.put raw t).2.placeOf (log.put raw t).1.dir = t.placeOf log.dir :=
    placeOf_of_base (append_frame t log.file (line raw)).1 log.dir
  refine ⟨?_, h.timestamp, ?_, ?_, ?_, h.full_length, ?_, ?_, ?_⟩
  · rw [Placed, hb]
    exact hp
  · rw [List.length_append, h.entries]
    rfl
  · have hfile := node log.timestamp
    rw [← hp, if_pos rfl] at hfile
    simpa [AppendLog.put, Volume.content] using hfile
  · have hi := h.increasing
    rw [List.pairwise_append] at hi ⊢
    refine ⟨hi.1, List.pairwise_singleton _ _, fun v hv w hw => ?_⟩
    rw [List.mem_singleton.1 hw]
    exact hi.2.2 v hv current List.mem_cons_self
  · rw [List.length_append, h.entries]
    exact Nat.succ_le_succ hroom
  · intro v hv
    obtain ⟨g, hg⟩ := h.at_place v hv
    have hlt := (List.pairwise_append.1 h.increasing).2.2 v hv _ List.mem_cons_self
    rw [h.timestamp] at hlt
    exact ⟨g, by rw [hb, node, if_neg (Nat.ne_of_gt hlt), hg]⟩
  · intro n g bs hf
    rw [hb, node] at hf
    by_cases hn : log.timestamp = n
    · exact ⟨_, List.mem_append_right _ (List.mem_singleton_self _), h.timestamp.trans hn⟩
    · rw [if_neg hn] at hf
      obtain ⟨v, hv, hvn⟩ := h.only n g bs hf
      rcases List.mem_append.1 hv with hv | hv
      · exact ⟨v, List.mem_append_left _ hv, hvn⟩
      · rw [List.mem_singleton.1 hv, h.timestamp] at hvn
        exact absurd hvn hn

/-- Recording adds one entry behind all others. -/
theorem Consists.record {now : Nat} {raw : String} (h : Consists log t full current)
    (hr : log.record now raw t = .ok (log', t')) :
    ∃ full' current', Consists log' t' full' current' ∧ log'.dir = log.dir ∧
      (full' ++ [current']).flatMap Volume.entries =
        (full ++ [current]).flatMap Volume.entries ++ [raw] := by
  rcases record_eq_ok_iff.1 hr with ⟨hroom, hput⟩ | ⟨hfull, log₁, t₁, hrot, hput⟩
  · have h' := h.put raw hroom
    rw [hput] at h'
    cases hput
    exact ⟨_, _, h', rfl, by simp⟩
  · obtain ⟨h₁, hdir, hth, hn⟩ := h.rotate hfull hrot
    have h' := h₁.put raw (by rw [hn]; exact Nat.zero_le _)
    rw [hput] at h'
    cases hput
    exact ⟨_, _, h', hdir, by simp⟩

end Consists

/-- The files of a log at a place with what they hold, in the order of their timestamps. -/
structure Chronicle (t : FileTree) (d : Place) (files : List (Nat × Bytes)) : Prop where
  increasing : files.Pairwise fun f g => f.1 < g.1
  mem_iff : ∀ n bs, (n, bs) ∈ files ↔ ∃ g, t.node? (d ++ [fileName n]) = some (.file g bs)

/-- The lines of files, without their line feeds. -/
def linesOf (files : List (Nat × Bytes)) : List Bytes := files.flatMap fun f => Wire.lines f.2

theorem Chronicle.unique {t : FileTree} {d : Place} {files files' : List (Nat × Bytes)}
    (h : Chronicle t d files) (h' : Chronicle t d files') : files = files' := by
  have nodup {fs : List (Nat × Bytes)} (hf : fs.Pairwise fun f g => f.1 < g.1) : fs.Nodup := by
    apply hf.imp
    rintro f g hlt rfl
    exact Nat.lt_irrefl _ hlt
  have perm : files.Perm files' := by
    rw [List.perm_ext_iff_of_nodup (nodup h.increasing) (nodup h'.increasing)]
    rintro ⟨n, bs⟩
    rw [h.mem_iff, h'.mem_iff]
  exact perm.eq_of_pairwise (fun f g _ _ hfg hgf => absurd hfg (Nat.lt_asymm hgf)) h.increasing
    h'.increasing

theorem Consists.chronicle {log : AppendLog} {t : FileTree} {full : List Volume}
    {current : Volume} (h : Consists log t full current) :
    Chronicle t (t.placeOf log.dir)
      ((full ++ [current]).map fun v => (v.timestamp, v.content)) := by
  refine ⟨List.pairwise_map.2 h.increasing, fun n bs => ?_⟩
  rw [List.mem_map]
  constructor
  · rintro ⟨v, hv, he⟩
    cases he
    exact h.at hv
  · rintro ⟨g, hg⟩
    obtain ⟨v, hv, rfl⟩ := h.only n g bs hg
    obtain ⟨g', hg'⟩ := h.at hv
    rw [hg] at hg'
    cases hg'
    exact ⟨v, hv, rfl⟩

theorem Volume.lines_content {v : Volume} (h : ∀ raw ∈ v.entries, '\n' ∉ raw.toList) :
    Wire.lines v.content = v.entries.map Utf8.encode := by
  have hc : v.content = v.entries.flatMap Wire.frame := by
    rw [Volume.content, funext Wire.line_eq_frame]
  rw [hc, Wire.lines_flatMap_frame h]

theorem Consists.linesOf_eq {log : AppendLog} {t : FileTree} {full : List Volume}
    {current : Volume} (h : Consists log t full current)
    (plain : ∀ raw ∈ (full ++ [current]).flatMap Volume.entries, '\n' ∉ raw.toList)
    {files : List (Nat × Bytes)} (chronicle : Chronicle t (t.placeOf log.dir) files) :
    linesOf files = ((full ++ [current]).flatMap Volume.entries).map Utf8.encode := by
  have hv : ∀ v ∈ full ++ [current], Wire.lines v.content = v.entries.map Utf8.encode :=
    fun v hv => Volume.lines_content fun raw hraw => plain raw (List.mem_flatMap.2 ⟨v, hv, hraw⟩)
  rw [chronicle.unique h.chronicle, linesOf, List.flatMap_map, List.map_flatMap,
    List.flatMap_def, List.map_congr_left hv, List.flatMap_def]

end Keyline.AppendLog
