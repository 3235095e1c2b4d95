/-
  PageAssembly/Main.lean
  ======================
  **The program.**

  Reads the command line and the files, runs the command, and prints its report.
-/
import PageAssembly.CommandLine.Arguments

open PageAssembly PageAssembly.CommandLine

namespace PageAssembly.Program

/-- The files below a folder, by the names that lead to them from `names` on. -/
partial def loadTree (folder : String) (names : List Text) : IO FileTree := do
  let mut tree : FileTree := ⟨[], [names]⟩
  for entry in ← (← IO.FS.realPath folder).readDir do
    let below := names ++ [entry.fileName.toList]
    if ← entry.path.isDir then
      let sub ← loadTree entry.path.toString below
      tree := ⟨tree.files ++ sub.files, tree.folders ++ sub.folders⟩
    else
      let bytes ← IO.FS.readBinFile entry.path
      tree := ⟨tree.files ++ [(below, bytes.toList)], tree.folders⟩
  return tree

def isFolder (name : String) : IO Bool := do
  try (← IO.FS.realPath name).isDir
  catch _ => return false

def render (root : Text) (o : RenderOptions) : IO Report := do
  let name := String.ofList root
  if ← isFolder name then
    let tree ← loadTree name []
    let seed := (← IO.getRandomBytes 6).toList.foldl (fun n b => 256 * n + b.toNat) 0
    return renderSite (fun n => Verbatim.token (seed + n)) ⟨tree, .inside []⟩ o
  else return .usage

def tags (file : Text) : IO Report := do
  let name := String.ofList file
  if ← isFolder name then return .usage
  try
    let bytes ← IO.FS.readBinFile name
    return tagsReport (some (rows (lineFeeds (Text.Utf8.decode bytes.toList))))
  catch _ => return tagsReport none

end PageAssembly.Program

def main (args : List String) : IO UInt32 := do
  let report ← match Command.ofArguments? (args.map String.toList) with
    | some (.render root o) => Program.render root o
    | some (.tags file) => Program.tags file
    | none => pure .usage
  for line in report.console do
    IO.eprintln (String.ofList line)
  IO.print (String.ofList (report.printed (← (← IO.getStdout).isTty)))
  return report.exit.toUInt32
