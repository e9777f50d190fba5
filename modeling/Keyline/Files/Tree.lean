import Keyline.Files.Path
import Keyline.Text.Utf8

/-!
# File trees

A file tree is a finite map from places to directories and files in which every node lies in a
directory. Its nodes are listed in no particular order.

A file carries the number of removals before its creation. A place can only be used anew after a
removal, so place and number together name one file for ever: an open file that was removed no
longer takes part in the tree, even if its place is used again.

A change of files made in several steps is a list of actions. They are done in order until one
fails; what was done before it stays.

There are no links, so every place has one path of names, and no permissions, so nothing is refused
but for what stands at a place. Names that are not texts in UTF-8 do not occur.
-/
namespace Keyline

inductive Node
  | directory
  | file (generation : Nat) (content : Bytes)
  deriving Repr, DecidableEq

/-- A file that stays open for appending, wherever the path by which it was opened leads now. -/
structure OpenFile where
  place : Place
  generation : Nat
  deriving Repr, DecidableEq

structure FileTree where
  nodes : List (Place × Node)
  /-- How often something was removed. -/
  removals : Nat
  /-- Where relative paths start. -/
  base : Place
  nodup : (nodes.map Prod.fst).Nodup
  top_not_mem : [] ∉ nodes.map Prod.fst
  closed : ∀ p ∈ nodes.map Prod.fst, p.dropLast = [] ∨ (p.dropLast, Node.directory) ∈ nodes

namespace FileTree

def empty : FileTree :=
  ⟨[], 0, [], List.Pairwise.nil, List.not_mem_nil, fun _ h => absurd h List.not_mem_nil⟩

instance : Inhabited FileTree := ⟨empty⟩

deriving instance DecidableEq for FileTree

def find? (p : Place) : List (Place × Node) → Option Node
  | [] => none
  | e :: es => if e.1 = p then some e.2 else find? p es

theorem mem_of_find? {p : Place} {n : Node} {es : List (Place × Node)} (h : find? p es = some n) :
    (p, n) ∈ es := by
  induction es with
  | nil => simp [find?] at h
  | cons e es ih =>
    unfold find? at h
    split at h
    · next he =>
      cases h
      exact he ▸ List.mem_cons_self
    · exact List.mem_cons_of_mem _ (ih h)

theorem find?_eq_some_iff {p : Place} {n : Node} {es : List (Place × Node)}
    (hd : (es.map Prod.fst).Nodup) : find? p es = some n ↔ (p, n) ∈ es := by
  refine ⟨mem_of_find?, fun h => ?_⟩
  induction es with
  | nil => simp at h
  | cons e es ih =>
    obtain ⟨he, hd⟩ := List.nodup_cons.1 hd
    unfold find?
    rcases List.mem_cons.1 h with rfl | h
    · simp
    · have : e.1 ≠ p := by
        rintro rfl
        exact he (List.mem_map.2 ⟨_, h, rfl⟩)
      rw [if_neg this, ih hd h]

theorem find?_filter (f : Place → Bool) (p : Place) (es : List (Place × Node)) :
    find? p (es.filter fun e => f e.1) = if f p then find? p es else none := by
  induction es with
  | nil => simp [find?]
  | cons e es ih =>
    by_cases h : f e.1
    · simp only [List.filter_cons, h, if_true, find?, ih]
      grind
    · simp only [List.filter_cons, h, Bool.false_eq_true, if_false, find?, ih]
      grind

def node? (t : FileTree) (p : Place) : Option Node :=
  if p = [] then some .directory else find? p t.nodes

def isDirectory (t : FileTree) (p : Place) : Bool := t.node? p = some .directory

def isFile (t : FileTree) (p : Place) : Bool :=
  match t.node? p with
  | some (.file _ _) => true
  | _ => false

@[simp] theorem node?_top (t : FileTree) : t.node? [] = some .directory := by simp [node?]

theorem mem_nodes_iff {t : FileTree} {p : Place} {n : Node} (hp : p ≠ []) :
    (p, n) ∈ t.nodes ↔ t.node? p = some n := by
  rw [node?, if_neg hp, find?_eq_some_iff t.nodup]

/-- Every node lies in a directory. -/
theorem node?_dropLast {t : FileTree} {p : Place} {n : Node} (h : t.node? p = some n) :
    t.node? p.dropLast = some .directory := by
  by_cases hp : p = []
  · simp [hp]
  · have hm := (mem_nodes_iff hp).2 h
    rcases t.closed p (List.mem_map_of_mem hm) with h0 | h1
    · simp [h0]
    · by_cases h0 : p.dropLast = []
      · simp [h0]
      · exact (mem_nodes_iff h0).1 h1

theorem node?_of_child {t : FileTree} {p : Place} {name : String} {n : Node}
    (h : t.node? (p ++ [name]) = some n) : t.node? p = some .directory := by
  simpa using node?_dropLast h

/-- Whether `n` may be put at `p`: it lies in a directory and takes no directory's place. -/
def Fits (t : FileTree) (p : Place) (n : Node) : Prop :=
  p ≠ [] ∧ t.node? p.dropLast = some .directory ∧
    (t.node? p = some .directory → n = .directory)

instance (t : FileTree) (p : Place) (n : Node) : Decidable (t.Fits p n) :=
  inferInstanceAs (Decidable (_ ∧ _ ∧ (_ → _)))

/-- Puts a node at a place where it fits. -/
def insert (t : FileTree) (p : Place) (n : Node) : FileTree :=
  if h : t.Fits p n then
    { t with
      nodes := (p, n) :: t.nodes.filter fun e => e.1 ≠ p
      nodup := by
        refine List.nodup_cons.2 ⟨by simp, ?_⟩
        exact t.nodup.sublist (List.filter_sublist.map _)
      top_not_mem := by
        simp only [List.map_cons, List.mem_cons, not_or]
        refine ⟨fun e => h.1 e.symm, fun hm => t.top_not_mem ?_⟩
        exact (List.filter_sublist.map Prod.fst).subset hm
      closed := by
        have hne : p.dropLast ≠ p := fun e => by
          have := congrArg List.length e
          have := List.length_pos_iff.2 h.1
          rw [List.length_dropLast] at *
          omega
        intro q hq
        rcases List.mem_cons.1 hq with he | hq
        · rw [show q = p from he]
          by_cases h0 : p.dropLast = []
          · exact .inl h0
          · refine .inr (List.mem_cons_of_mem _ (List.mem_filter.2 ⟨?_, by simpa using hne⟩))
            exact (mem_nodes_iff h0).2 h.2.1
        · have hq' := (List.filter_sublist.map Prod.fst).subset hq
          rcases t.closed q hq' with h0 | h1
          · exact .inl h0
          · by_cases he : q.dropLast = p
            · refine .inr ?_
              have hn := h.2.2 ((mem_nodes_iff h.1).1 (he ▸ h1))
              rw [he, hn]
              exact List.mem_cons_self
            · exact .inr (List.mem_cons_of_mem _ (List.mem_filter.2 ⟨h1, by simpa using he⟩)) }
  else t

theorem node?_insert {t : FileTree} {p : Place} {n : Node} (h : t.Fits p n) (q : Place) :
    (t.insert p n).node? q = if p = q then some n else t.node? q := by
  unfold insert
  rw [dif_pos h]
  by_cases hq : q = []
  · subst hq
    rw [node?_top, if_neg h.1, node?_top]
  · simp only [node?, if_neg hq, find?]
    by_cases hpq : p = q
    · simp [hpq]
    · rw [if_neg hpq, if_neg hpq]
      have := find?_filter (fun r => decide (r ≠ p)) q t.nodes
      simpa [Ne.symm hpq] using this

def prune (t : FileTree) (p : Place) : FileTree :=
  { t with
    nodes := t.nodes.filter fun e => !p.isPrefixOf e.1
    nodup := t.nodup.sublist (List.filter_sublist.map _)
    top_not_mem := fun hm => t.top_not_mem ((List.filter_sublist.map Prod.fst).subset hm)
    closed := by
      intro q hq
      obtain ⟨e, he, rfl⟩ := List.mem_map.1 hq
      obtain ⟨he, hf⟩ := List.mem_filter.1 he
      rcases t.closed e.1 (List.mem_map_of_mem he) with h0 | h1
      · exact .inl h0
      · refine .inr (List.mem_filter.2 ⟨h1, ?_⟩)
        simp only [Bool.not_eq_eq_eq_not, Bool.not_true] at hf ⊢
        refine Bool.eq_false_iff.2 fun hp => ?_
        have := (List.isPrefixOf_iff_prefix.1 hp).trans (List.dropLast_prefix e.1)
        exact Bool.eq_false_iff.1 hf (List.isPrefixOf_iff_prefix.2 this) }

theorem node?_prune {t : FileTree} {p : Place} (hp : p ≠ []) (q : Place) :
    (t.prune p).node? q = if p <+: q then none else t.node? q := by
  by_cases hq : q = []
  · subst hq
    simp [hp]
  · simp only [node?, if_neg hq, prune]
    have := find?_filter (fun r => !p.isPrefixOf r) q t.nodes
    rw [this]
    by_cases h : p <+: q
    · simp [h, List.isPrefixOf_iff_prefix.2 h]
    · have : p.isPrefixOf q = false :=
        Bool.eq_false_iff.2 fun e => h (List.isPrefixOf_iff_prefix.1 e)
      simp [h, this]

/-- Removes a place and everything below it. -/
def remove (t : FileTree) (p : Place) : FileTree :=
  { t.prune p with removals := t.removals + 1 }

/-- Opens a file of a directory for appending; the file is made if it is not there. -/
def openAppend (t : FileTree) (p : Place) : Except Fault (OpenFile × FileTree) :=
  match t.node? p with
  | some .directory => .error .isDirectory
  | some (.file g _) => .ok (⟨p, g⟩, t)
  | none => .ok (⟨p, t.removals⟩, t.insert p (.file t.removals []))

/-- Makes an empty file in a directory, or empties the one that is there. -/
def create (t : FileTree) (p : Place) : Except Fault FileTree :=
  match t.node? p with
  | some .directory => .error .isDirectory
  | some (.file g _) => .ok (t.insert p (.file g []))
  | none => .ok (t.insert p (.file t.removals []))

/-- Appends to an open file; if it is gone the tree does not change. -/
def append (t : FileTree) (f : OpenFile) (bs : Bytes) : FileTree :=
  match t.node? f.place with
  | some (.file g old) =>
    if g = f.generation then t.insert f.place (.file g (old ++ bs)) else t
  | _ => t

/-- Appends to the file that stands at `p` now. -/
def extend (t : FileTree) (p : Place) (bs : Bytes) : FileTree :=
  match t.node? p with
  | some (.file g old) => t.insert p (.file g (old ++ bs))
  | _ => t

/-- Moves a file onto a place in a directory, whose file it replaces. -/
def rename (t : FileTree) (p q : Place) : Except Fault FileTree :=
  match t.node? p with
  | some (.file g bs) =>
    if t.isDirectory q then .error .isDirectory
    else .ok ((t.prune p).insert q (.file g bs))
  | some .directory => .error .isDirectory
  | none => .error .absent

def read (t : FileTree) (p : Place) : Except Fault Bytes :=
  match t.node? p with
  | some .directory => .error .isDirectory
  | some (.file _ bs) => .ok bs
  | none => .error .absent

/-- Names of what a directory holds, in no particular order. -/
def list (t : FileTree) (p : Place) : Except Fault (List String) :=
  match t.node? p with
  | some .directory =>
    .ok (t.nodes.filterMap fun e => if e.1.dropLast = p then e.1.getLast? else none)
  | some (.file _ _) => .error .notDirectory
  | none => .error .absent

/-- Everything below a place, each directory before what it holds, names in byte order. -/
def below (t : FileTree) (p : Place) : List (Place × Node) :=
  let entries := t.nodes.filter fun e => p.isPrefixOf e.1 && e.1 ≠ p
  let order (a b : Place × Node) : Bool := (a.1.map Utf8.encode) ≤ (b.1.map Utf8.encode)
  (entries.mergeSort order).map fun e => (e.1.drop p.length, e.2)

end FileTree

inductive FileAction
  | create (p : Place)
  | extend (p : Place) (bs : Bytes)
  | rename (p q : Place)
  deriving Repr, DecidableEq

namespace FileAction

def run : FileAction → FileTree → Except Fault FileTree
  | create p, t => t.create p
  | extend p bs, t => .ok (t.extend p bs)
  | rename p q, t => t.rename p q

/-- Does actions in order; gives the fault that ended them, with the files as they are then. -/
def runAll : List FileAction → FileTree → Option Fault × FileTree
  | [], t => (none, t)
  | a :: as, t =>
    match a.run t with
    | .ok t' => runAll as t'
    | .error f => (some f, t)

end FileAction
end Keyline
