import Keyline.Worker

/-!
# The disk

A file tree is taken from the disk as far as a database needs it, and what an event changed in the
tree is put back. No content is taken but that of files which are read; a log file is only ever
appended to, so it counts as empty here.
-/
namespace Keyline.Disk

def path (p : Place) : String := "/" ++ "/".intercalate p

def content (p : Place) : IO Bytes := return (← IO.FS.readBinFile (path p)).toList

/-- Takes over what stands at a place, a file without its content. -/
def look (t : FileTree) (p : Place) : IO FileTree := do
  let onDisk := System.mkFilePath [path p]
  if ← onDisk.isDir then return t.insert p .directory
  else if ← onDisk.pathExists then return t.insert p (.file 0 [])
  else return t

/-- Takes over a place and everything on the way to it. -/
def reach (t : FileTree) (p : Place) : IO FileTree := do
  let mut t := t
  for i in [1 : p.length + 1] do
    t ← look t (p.take i)
  return t

/-- The places on the way along some names, if each of them leads somewhere. -/
def course (p : Place) : List String → List Place
  | [] => [p]
  | "." :: names => course p names
  | ".." :: names => p :: course p.dropLast names
  | n :: names => p :: course (p ++ [n]) names

/-- Takes over what a path stands for, everything on the way to it, and the names that it holds. -/
def survey (t : FileTree) (p : Path) : IO FileTree := do
  let mut t := t
  for q in course (t.origin p) p.names do
    t ← reach t q
  match t.directory p with
  | .error _ => return t
  | .ok d =>
    let onDisk := System.mkFilePath [path d]
    if ← onDisk.isDir then
      for entry in ← onDisk.readDir do
        t ← look t (d ++ [entry.fileName])
    return t

/-- Takes over the content of the file that a path stands for, if there is one. -/
def fetch (t : FileTree) (p : Path) : IO FileTree := do
  let t ← survey t p
  match t.lookup p with
  | .error _ => return t
  | .ok q => if t.isFile q then return t.insert q (.file 0 (← content q)) else return t

/-- Writes a file under a temporary name and renames it when it is complete. -/
def replace (p : Place) (bs : Bytes) : IO Unit := do
  let temporary := path p ++ ".tmp"
  IO.FS.writeBinFile temporary ⟨bs.toArray⟩
  IO.FS.rename temporary (path p)

def append (p : Place) (bs : Bytes) : IO Unit :=
  IO.FS.withFile (path p) .append fun handle => handle.write ⟨bs.toArray⟩

def put (before after : FileTree) (p : Place) : IO Unit := do
  match before.node? p, after.node? p with
  | some (.file _ old), some (.file _ new) =>
    if old = new then return
    else if old.isPrefixOf new then append p (new.drop old.length)
    else replace p new
  | _, some (.file _ new) =>
    IO.FS.createDirAll (path p.dropLast)
    replace p new
  | none, some .directory => IO.FS.createDirAll (path p)
  | _, _ => return

/-- The places of the files that an event may change. -/
def touched (w : Worker) : List Place :=
  let archive := w.database.archive
  let snapshot := match w.files.directory archive.dir with
    | .ok d => [d ++ [Snapshots.fileName archive.last]]
    | .error _ => []
  (w.database.log.map (·.file.place)).toList ++ snapshot

def directories (t : FileTree) : List Place :=
  (t.nodes.filter (·.2 = .directory)).map Prod.fst

def save (before after : Worker) : IO Unit :=
  ((directories after.files).reverse ++ touched before ++ touched after).eraseDups.forM
    (put before.files after.files)

end Keyline.Disk
