import CardFilter.CommandLine.Run

/-!
# The program

The program reads the settings files and the names file that can matter, runs the command on them,
prints what it answers and writes the files that it changed.
-/

namespace CardFilter.CommandLine

/-- What a path names, if anything. Only a path with a text can be asked for. -/
def readNode (path : FilePath) : IO (Option FileNode) := do
  let some name := path.text? | return none
  try
    let found ← IO.FS.realPath name
    if ← found.isDir then
      return some .directory
    else
      let bytes ← IO.FS.readBinFile name
      match String.fromUTF8? bytes with
      | some content => return some (.file content)
      | none => return some (.binary bytes.toList)
  catch
    | .noFileOrDirectory _ _ _ => return none
    | e => throw e

/-- The tree with what a path names. -/
def addNode (tree : FileTree) (path : FilePath) : IO FileTree := do
  match ← readNode path with
  | some node => return tree.insert path node
  | none => return tree

/-- The directory in which the program runs, and the files that can matter there. -/
def readSurroundings : IO (Surroundings × FilePath) := do
  let directory := FilePath.ofText (← IO.currentDir).toString
  let home := (← IO.getEnv "HOME").bind fun text =>
    if text.isEmpty then none else some (FilePath.ofText text)
  let s : Surroundings := ⟨.empty, home⟩
  let paths := directory :: home.toList
    ++ (directory.ancestors.map Surroundings.settingsPath ++ s.globalPath?.toList)
  let tree ← paths.foldlM addNode s.tree
  let names := match (⟨tree, home⟩ : Surroundings).load directory with
    | .ok settings => settings.names.toList
    | .error _ => []
  return (⟨← names.foldlM addNode tree, home⟩, directory)

/-- Prints an answer, and writes the files that it changed. -/
def deliver (before : FileTree) (r : Reply) : IO UInt32 := do
  for (path, content) in before.changes r.tree do
    IO.FS.writeFile path.display content
  IO.print r.output
  IO.eprint r.complaint
  return r.exitCode.toUInt32

end CardFilter.CommandLine

open CardFilter CommandLine in
/-- **Runs the command that the arguments write.** -/
def main (arguments : List String) : IO UInt32 := do
  match Command.ofArguments arguments with
  | .error fault =>
    if fault.exitCode = 0 then IO.print fault.message else IO.eprint fault.message
    return fault.exitCode.toUInt32
  | .ok command =>
    let (s, directory) ← readSurroundings
    deliver s.tree (command.run s directory)
