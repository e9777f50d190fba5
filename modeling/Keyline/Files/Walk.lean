import Keyline.Files.Tree

/-!
# Following paths

The names of a path are followed through the tree. Only a directory leads anywhere, so each name
but the last must be that of a directory that is there, also where two dots come next.

Making a directory makes those above it that are missing, the highest first. What was made before
a fault stays.
-/
namespace Keyline.FileTree

/-- The longest name in a directory, in bytes. -/
def nameLimit : Nat := 255

/-- The fault of looking for a name at a place. -/
def barrier (t : FileTree) (p : Place) : Option Fault :=
  match t.node? p with
  | some .directory => none
  | some (.file _ _) => some .notDirectory
  | none => some .absent

@[simp] theorem barrier_eq_none_iff {t : FileTree} {p : Place} :
    t.barrier p = none ↔ t.node? p = some .directory := by
  unfold barrier
  split <;> simp_all

/-- Follows one name: a dot stays at a directory and two dots lead up from it. -/
def step (t : FileTree) (p : Place) (name : String) : Except Fault Place :=
  match t.barrier p with
  | some f => .error f
  | none =>
    if name = "." then .ok p
    else if name = ".." then .ok p.dropLast
    else if nameLimit < name.utf8ByteSize then .error .nameTooLong
    else if (t.node? (p ++ [name])).isSome then .ok (p ++ [name])
    else .error .absent

def walk (t : FileTree) (p : Place) : List String → Except Fault Place
  | [] => .ok p
  | n :: ns =>
    match t.step p n with
    | .error f => .error f
    | .ok q => t.walk q ns

theorem walk_append (t : FileTree) (p : Place) (names more : List String) :
    t.walk p (names ++ more) = (t.walk p names).bind fun q => t.walk q more := by
  induction names generalizing p with
  | nil => rfl
  | cons n ns ih =>
    simp only [List.cons_append, walk]
    split
    · rfl
    · exact ih _

theorem isSome_node?_of_step {t : FileTree} {p q : Place} {name : String}
    (h : t.step p name = .ok q) : (t.node? q).isSome := by
  unfold step at h
  split at h
  · simp at h
  · next hb =>
    have hd := barrier_eq_none_iff.1 hb
    split at h
    · cases h
      simp [hd]
    · split at h
      · cases h
        simp [node?_dropLast hd]
      · split at h
        · simp at h
        · split at h
          · cases h
            assumption
          · simp at h

theorem isSome_node?_of_walk {t : FileTree} {p q : Place} {names : List String}
    (hp : (t.node? p).isSome) (h : t.walk p names = .ok q) : (t.node? q).isSome := by
  induction names generalizing p with
  | nil =>
    cases h
    exact hp
  | cons n ns ih =>
    unfold walk at h
    split at h
    · simp at h
    · next hs => exact ih (isSome_node?_of_step hs) h

/-- Where the names of a path are followed from. -/
def origin (t : FileTree) (p : Path) : Place := if p.isAbsolute then [] else t.base

def follow (t : FileTree) (p : Path) : Except Fault Place :=
  match p.fault? with
  | some f => .error f
  | none => t.walk (t.origin p) p.names

/-- The place of what a path stands for. -/
def lookup (t : FileTree) (p : Path) : Except Fault Place :=
  if p.text = "" then .error .absent
  else
    match t.follow p with
    | .error f => .error f
    | .ok q => if p.endsInSlash && !t.isDirectory q then .error .notDirectory else .ok q

/-- The place of a directory; an empty path is where relative paths start. -/
def directory (t : FileTree) (p : Path) : Except Fault Place :=
  match t.follow p with
  | .error f => .error f
  | .ok q =>
    match t.barrier q with
    | some f => .error f
    | none => .ok q

theorem node?_of_directory {t : FileTree} {p : Path} {d : Place} (h : t.directory p = .ok d) :
    t.node? d = some .directory := by
  unfold directory at h
  split at h
  · simp at h
  · split at h
    · simp at h
    · next hb =>
      cases h
      exact barrier_eq_none_iff.1 hb

/-- The place of a name directly in a directory, whether or not anything is there. -/
def entry (t : FileTree) (dir : Path) (name : String) : Except Fault Place :=
  match (dir.child name).fault? with
  | some f => .error f
  | none => (t.directory dir).map (· ++ [name])

theorem entry_eq_ok_iff {t : FileTree} {dir : Path} {name : String} {p : Place} :
    t.entry dir name = .ok p ↔
      (dir.child name).fault? = none ∧ ∃ d, t.directory dir = .ok d ∧ p = d ++ [name] := by
  unfold entry
  split
  · next h => simp [h]
  · next h =>
    cases t.directory dir <;> simp [Except.map, h, eq_comm]

def readPath (t : FileTree) (p : Path) : Except Fault Bytes := (t.lookup p).bind t.read

/-- The place of the last name, whether or not anything is there. -/
def slot (t : FileTree) (p : Place) (names : List String) : Except Fault Place :=
  match names.getLast? with
  | none => .error .occupied
  | some n =>
    match t.walk p names.dropLast with
    | .error f => .error f
    | .ok d =>
      match t.barrier d with
      | some f => .error f
      | none =>
        if n = "." ∨ n = ".." then .error .occupied
        else if nameLimit < n.utf8ByteSize then .error .nameTooLong
        else .ok (d ++ [n])

def makeDirectory (t : FileTree) (p : Place) (names : List String) :
    Except Fault (Place × FileTree) :=
  match t.slot p names with
  | .error f => .error f
  | .ok q => if (t.node? q).isSome then .error .occupied else .ok (q, t.insert q .directory)

/-- Makes one directory unless it is there; gives its place. -/
def ensure (t : FileTree) (p : Place) (names : List String) : Except Fault Place × FileTree :=
  match t.makeDirectory p names with
  | .ok (q, t') => (.ok q, t')
  | .error .occupied =>
    match t.walk p names with
    | .ok q => if t.isDirectory q then (.ok q, t) else (.error .occupied, t)
    | .error _ => (.error .occupied, t)
  | .error f => (.error f, t)

/-- Makes a directory, and those above it if they are missing; gives its place. -/
def makeFrom (t : FileTree) (p : Place) (names : List String) : Except Fault Place × FileTree :=
  if _h : names = [] then (.ok p, t)
  else
    match t.ensure p names with
    | (.error .absent, t) =>
      match makeFrom t p (Path.above names) with
      | (.ok q, t) => t.ensure q (names.drop (Path.above names).length)
      | r => r
    | r => r
termination_by names.length
decreasing_by exact Path.length_above_lt _h

/-- Makes the directory that a path stands for, and those above it; gives its place. -/
def makeDirectories (t : FileTree) (p : Path) : Except Fault Place × FileTree :=
  match p.fault? with
  | some f => (.error f, t)
  | none => t.makeFrom (t.origin p) p.names

end Keyline.FileTree
