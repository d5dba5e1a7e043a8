import Rulebook.CommandLine

/-!
# The program

The program reads the files around the working directory and the project's root into a tree, answers the command line,
and writes the files that are new or have changed.
-/

namespace Rulebook

namespace Main

/-- Read what a path leads to; nothing, if it cannot be read. The directories at and below the path that may not be
listed stand in the state, and are empty. -/
partial def readTree (path : String) : StateT (List Location) IO (Option Tree) := do
  try
    let directory ← IO.FS.realPath path
    if ← directory.isDir then
      let mut entries : List (String × Tree) := []
      let some listed ← try some <$> directory.readDir catch _ => pure none
        | modify (FileSystem.parts directory.toString :: ·)
          return some (.directory [])
      for entry in listed do
        let place := entry.path.toString
        let real ← IO.FS.realPath place
        if real.toString ≠ (directory / entry.fileName).toString then
          entries := (entry.fileName, .link real.toString) :: entries
        else
          match ← readTree place with
          | some tree => entries := (entry.fileName, tree) :: entries
          | none => pure ()
      return some (.directory entries)
    else
      return some (.file (← IO.FS.readBinFile path))
  catch _ => return none

/-- The file system with a tree at an absolute path, and with directories that may not be listed. -/
def mount (fs : FileSystem) (path : String) (tree : Tree) (places : List Location) : FileSystem :=
  let (fs, _) := fs.createDirectories ((Path.parent? ⟨path⟩).getD ⟨"/"⟩)
  { fs with
    root := tree.put (FileSystem.parts path) fs.root
    isSealed := fun location => fs.isSealed location || places.contains location }

/-- The file system with what a path leads to, if that can be read. -/
def mountPath (fs : FileSystem) (path : String) : IO FileSystem := do
  match ← (readTree path).run [] with
  | (some tree, places) => return mount fs path tree places
  | (none, _) => return fs

/-- The file system with the settings files of a directory and those around it. -/
def mountSettings (fs : FileSystem) (path : String) : IO FileSystem :=
  let wanted := (Settings.candidates ⟨path⟩).filter fun file => !fs.isFile file
  wanted.foldlM (fun fs file => mountPath fs file.text) fs

/-- The file system that a command line works on. -/
def readFiles (words : List String) : IO FileSystem := do
  let here := (← IO.currentDir).toString
  let fs : FileSystem := FileSystem.withPrograms (.directory [], [])
  let fs ← mountSettings fs here
  let fs ← mountPath fs here
  let fs := { fs with here := FileSystem.parts here }
  match CommandLine.parse words with
  | .error _ => return fs
  | .ok given =>
    let named := (given.root?.toList ++ given.settings?.toList).map fun path => (fs.herePath.join path.text).text
    let outside := named.filter fun path => !path.startsWith (here ++ "/")
    outside.foldlM (fun fs path => do mountPath (← mountSettings fs path) path) fs

/-- Write the files that have changed. -/
def writeFiles (before after : FileSystem) : IO Unit := do
  let top (fs : FileSystem) : FileSystem := { fs with here := [] }
  for (path, content) in FileSystem.changes (top before) (top after) do
    match Path.parent? ⟨"/" ++ path⟩ with
    | some directory => IO.FS.createDirAll directory.text
    | none => pure ()
    IO.FS.writeBinFile ("/" ++ path) content

end Main

end Rulebook

open Rulebook in
/-- Answer the command line. -/
def main (words : List String) : IO UInt32 := do
  let before ← Main.readFiles words
  let (answer, after) := CommandLine.execute words before
  Main.writeFiles before after
  IO.print answer.output
  IO.eprint answer.diagnostics
  return answer.exitCode.toUInt32
