import ContractBuild.CommandLine.Program
import ContractBuild.FileTree.Change
/-!
The program on a real machine. It sees the files at and below the directory that it is started
in, and it starts no other programs.
-/
namespace ContractBuild.Host

/-- The directory with some entries. -/
partial def readEntries (entries : Array IO.FS.DirEntry) : IO FileNode := do
  let mut node := FileNode.emptyDirectory
  for entry in entries do
    let child ←
      if ← entry.path.isDir then readEntries (← entry.path.readDir)
      else FileNode.file <$> IO.FS.readBinFile entry.path
    node := FileNode.put child [entry.fileName] node
  return node

def applyChange : FileChange → IO Unit
  | .removeFile path => IO.FS.removeFile path.text
  | .removeDirectory path => IO.FS.removeDir path.text
  | .addDirectory path => IO.FS.createDirAll path.text
  | .writeFile path content => IO.FS.writeBinFile path.text content

def utter : Utterance → IO Unit
  | .output text => IO.print text
  | .complaint line => IO.eprintln line
  | .log level message => IO.eprintln (level.text ++ " " ++ message)

/-- A name for a run. -/
def newRunId : IO String := do
  return Text.Numeral.render (← IO.rand 0 (Nat.pow 2 62))

end ContractBuild.Host

open ContractBuild Host

def main (arguments : List String) : IO UInt32 := do
  let here ← IO.currentDir
  let before ← readEntries (← here.readDir)
  let place := ((Text.splitOn '/' here.toString.toList).map String.ofList).filter (· ≠ "")
  let files := FileTree.within place
  let files := { files with root := FileNode.put before place files.root }
  let environment : Environment := ⟨← IO.getEnv "KILN_CONFIG", ← IO.getEnv "RUST_LOG"⟩
  let machine := Machine.bare "no programs can be started"
  let result := Program.run ⟨machine, ← newRunId⟩ environment arguments files
  let after := (result.files.root.get? place).getD .emptyDirectory
  (FileChange.between before after).forM applyChange
  result.said.forM utter
  return result.code.toUInt32
