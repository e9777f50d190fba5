import Keyline.Files.Walk

/-!
# Where paths lead

There are no links, so a path that can be followed leads to a place that its names alone decide: a
dot stays, two dots go up, every other name goes down. The place of a file in a directory is the
place of the directory with the name behind it.
-/
namespace Keyline.FileTree

/-- Where a name leads from a place, if it leads anywhere. -/
def climb (p : Place) (name : String) : Place :=
  if name = "." then p else if name = ".." then p.dropLast else p ++ [name]

/-- Where a path leads, if it leads anywhere. -/
def placeOf (t : FileTree) (p : Path) : Place := p.names.foldl climb (t.origin p)

theorem eq_climb_of_step {t : FileTree} {p q : Place} {name : String}
    (h : t.step p name = .ok q) : q = climb p name := by
  rw [step] at h
  rw [climb]
  split at h
  · simp at h
  · split at h
    · next h0 =>
      cases h
      rw [if_pos h0]
    · next h0 =>
      rw [if_neg h0]
      split at h
      · next h1 =>
        cases h
        rw [if_pos h1]
      · next h1 =>
        rw [if_neg h1]
        split at h
        · simp at h
        · split at h
          · cases h
            rfl
          · simp at h

theorem eq_foldl_climb_of_walk {t : FileTree} {p q : Place} {names : List String}
    (h : t.walk p names = .ok q) : q = names.foldl climb p := by
  induction names generalizing p with
  | nil =>
    cases h
    rfl
  | cons n ns ih =>
    rw [walk] at h
    split at h
    · simp at h
    · next hs =>
      rw [List.foldl_cons, ← eq_climb_of_step hs]
      exact ih h

theorem isPrefix_foldl_climb {names : List String} (h : ".." ∉ names) (p : Place) :
    p <+: names.foldl climb p := by
  induction names generalizing p with
  | nil => exact List.prefix_refl p
  | cons n ns ih =>
    rw [List.mem_cons, not_or] at h
    refine List.IsPrefix.trans ?_ (ih h.2 (climb p n))
    rw [climb]
    split
    · exact List.prefix_refl p
    · rw [if_neg (Ne.symm h.1)]
      exact List.prefix_append p [n]

theorem eq_placeOf_of_follow {t : FileTree} {p : Path} {q : Place} (h : t.follow p = .ok q) :
    q = t.placeOf p := by
  rw [follow] at h
  split at h
  · simp at h
  · exact eq_foldl_climb_of_walk h

theorem eq_placeOf_of_lookup {t : FileTree} {p : Path} {q : Place} (h : t.lookup p = .ok q) :
    q = t.placeOf p := by
  rw [lookup] at h
  split at h
  · simp at h
  · split at h
    · simp at h
    · next hf =>
      split at h
      · simp at h
      · cases h
        exact eq_placeOf_of_follow hf

theorem eq_placeOf_of_directory {t : FileTree} {p : Path} {q : Place}
    (h : t.directory p = .ok q) : q = t.placeOf p := by
  rw [directory] at h
  split at h
  · simp at h
  · next hf =>
    split at h
    · simp at h
    · cases h
      exact eq_placeOf_of_follow hf

end FileTree

namespace Path

/-- A text that can stand as one name in a path. -/
def IsName (name : String) : Prop := name ≠ "" ∧ '/' ∉ name.toList

instance (name : String) : Decidable (IsName name) :=
  inferInstanceAs (Decidable (name ≠ "" ∧ '/' ∉ name.toList))

theorem pieces_ne_nil (cs : List Char) : pieces cs ≠ [] := by
  cases cs with
  | nil => simp [pieces]
  | cons c cs =>
    rw [pieces]
    split
    · simp
    · split <;> simp

theorem pieces_append_slash (cs ds : List Char) :
    pieces (cs ++ '/' :: ds) = pieces cs ++ pieces ds := by
  induction cs with
  | nil => simp [pieces]
  | cons c cs ih =>
    rw [List.cons_append, pieces, pieces, ih]
    split
    · rfl
    · cases h : pieces cs with
      | nil => exact absurd h (pieces_ne_nil cs)
      | cons w ws => rfl

theorem pieces_of_no_slash {cs : List Char} (h : '/' ∉ cs) : pieces cs = [cs] := by
  induction cs with
  | nil => rfl
  | cons c cs ih =>
    rw [List.mem_cons, not_or] at h
    rw [pieces, if_neg (Ne.symm h.1), ih h.2]

theorem text_child {p : Path} {name : String} (h : IsName name) :
    (p.child name).text.toList =
      if p.text = "" ∨ p.endsInSlash then p.text.toList ++ name.toList
      else p.text.toList ++ '/' :: name.toList := by
  have hs : name.toList.head? ≠ some '/' := fun e => h.2 (List.mem_of_head? e)
  rw [child, if_neg hs]
  by_cases h0 : p.text = ""
  · simp [h0]
  · by_cases h1 : p.endsInSlash = true
    · simp [h1]
    · simp [h0, h1]

theorem names_child {p : Path} {name : String} (h : IsName name) :
    (p.child name).names = p.names ++ [name] := by
  have hn : (pieces name.toList).map String.ofList = [name] := by
    rw [pieces_of_no_slash h.2]
    simp
  unfold names
  rw [text_child h]
  split
  · next hp =>
    rcases hp with hp | hp
    · simp [hp, pieces, hn, h.1]
    · obtain ⟨cs, hcs⟩ : ∃ cs, p.text.toList = cs ++ ['/'] :=
        List.getLast?_eq_some_iff.1 (of_decide_eq_true hp)
      rw [hcs, List.append_assoc, List.singleton_append, pieces_append_slash, pieces_append_slash]
      simp [hn, h.1, pieces]
  · simp [pieces_append_slash, hn, h.1]

theorem child_injective {dir : Path} {m n : String} (hm : IsName m) (hn : IsName n)
    (h : dir.child m = dir.child n) : m = n := by
  have := congrArg names h
  rw [names_child hm, names_child hn] at this
  simpa using this

theorem isAbsolute_child {p : Path} {name : String} (h : IsName name) :
    (p.child name).isAbsolute = p.isAbsolute := by
  have hs : name.toList.head? ≠ some '/' := fun e => h.2 (List.mem_of_head? e)
  unfold isAbsolute
  rw [text_child h]
  cases hp : p.text.toList with
  | nil =>
    have h0 : p.text = "" := String.toList_eq_nil_iff.1 hp
    simp [h0, hs]
  | cons c cs => split <;> simp

theorem endsInSlash_child {p : Path} {name : String} (h : IsName name) :
    (p.child name).endsInSlash = false := by
  have hne : name.toList ≠ [] := fun e => h.1 (String.toList_eq_nil_iff.1 e)
  have hname := List.getLast?_eq_some_getLast hne
  obtain ⟨cs, hcs⟩ : ∃ cs, (p.child name).text.toList = cs ++ name.toList := by
    rw [text_child h]
    split
    · exact ⟨_, rfl⟩
    · exact ⟨p.text.toList ++ ['/'], by simp⟩
  rw [endsInSlash, hcs, List.getLast?_append, hname, decide_eq_false_iff_not]
  intro e
  exact h.2 (List.mem_of_getLast? (hname.trans e))

theorem isAbsolute_of_names {p : Path} (h0 : p.text ≠ "") (h : p.names = []) :
    p.isAbsolute = true := by
  rw [isAbsolute, decide_eq_true_eq]
  rw [names] at h
  cases ht : p.text.toList with
  | nil => exact absurd (String.toList_eq_nil_iff.1 ht) h0
  | cons c cs =>
    by_cases hc : c = '/'
    · rw [hc]
      rfl
    · have hp : ∃ w ws, pieces (c :: cs) = (c :: w) :: ws := by
        rw [pieces, if_neg hc]
        split
        · exact ⟨_, _, rfl⟩
        · exact ⟨_, _, rfl⟩
      obtain ⟨w, ws, hp⟩ := hp
      rw [ht, hp] at h
      simp at h

/-- What can be followed with a name behind it can be followed without it. -/
theorem fault?_of_child {p : Path} {name : String} (h : IsName name)
    (hc : (p.child name).fault? = none) : p.fault? = none := by
  have ht := text_child (p := p) h
  obtain ⟨s, hs⟩ : ∃ s : String, (p.child name).text = p.text ++ s := by
    split at ht
    · exact ⟨name, String.toList_inj.1 (by simpa using ht)⟩
    · exact ⟨"/" ++ name, String.toList_inj.1 (by simpa using ht)⟩
  rw [fault?] at hc ⊢
  rw [hs] at hc
  split at hc
  · simp at hc
  · next h0 =>
    split at hc
    · simp at hc
    · next h1 =>
      rw [String.utf8ByteSize_append] at h1
      rw [if_neg (fun hm => h0 (by simp [hm])), if_neg (by omega)]

end Path

namespace FileTree

theorem origin_child {t : FileTree} {p : Path} {name : String} (h : Path.IsName name) :
    t.origin (p.child name) = t.origin p := by
  unfold origin
  rw [Path.isAbsolute_child h]

theorem placeOf_child {t : FileTree} {p : Path} {name : String} (h : Path.IsName name)
    (h0 : name ≠ ".") (h1 : name ≠ "..") : t.placeOf (p.child name) = t.placeOf p ++ [name] := by
  unfold placeOf
  rw [Path.names_child h, origin_child h, List.foldl_append, List.foldl_cons, List.foldl_nil, climb,
    if_neg h0, if_neg h1]

theorem placeOf_of_base {t t' : FileTree} (h : t'.base = t.base) (p : Path) :
    t'.placeOf p = t.placeOf p := by
  unfold placeOf origin
  rw [h]

end Keyline.FileTree
