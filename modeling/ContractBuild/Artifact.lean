import ContractBuild.Interface.Codec
import ContractBuild.Source
/-!
Fingerprints and compiled artifacts. A fingerprint is the identity of a compilation: language,
compiler version, every flag and the content of the source, each closed by a zero byte except
the content, which comes last.
-/
namespace ContractBuild

/-- What identifies a compilation. -/
structure CompileInput where
  language : Language
  version : String
  flags : List String
  content : String
  deriving DecidableEq

structure Fingerprint where
  text : String
  deriving DecidableEq

namespace CompileInput

def closed (field : String) : ByteArray :=
  field.toUTF8.push 0

/-- The bytes that the fingerprint is the digest of. -/
def bytes (input : CompileInput) : ByteArray :=
  closed input.language.tag ++ closed input.version
    ++ input.flags.foldr (fun flag rest => closed flag ++ rest) input.content.toUTF8

end CompileInput

namespace Fingerprint

def ofInput (input : CompileInput) : Fingerprint :=
  ⟨Digest.hexDigest input.bytes⟩

def ofUnit (unit : SourceUnit) (version : String) (flags : List String) : Fingerprint :=
  ofInput ⟨unit.language, version, flags, unit.content⟩

/-- The digits shown in messages. -/
def short (fingerprint : Fingerprint) : String :=
  String.ofList (fingerprint.text.toList.take 12)

end Fingerprint

/-- What a compiler produces for one source. -/
structure CompilerOutput where
  interface : List Item
  bytecode : String

/-- A compiled source with the identity of its compilation. -/
structure Artifact where
  name : String
  language : Language
  version : String
  sourcePath : Path
  interface : List Item
  bytecode : String
  fingerprint : Fingerprint

namespace Artifact
open Json

def ofOutput (unit : SourceUnit) (version : String) (flags : List String)
    (output : CompilerOutput) : Artifact :=
  { name := unit.artifactName
    language := unit.language
    version
    sourcePath := unit.path
    interface := output.interface
    bytecode := output.bytecode
    fingerprint := Fingerprint.ofUnit unit version flags }

def descriptor (artifact : Artifact) : Descriptor :=
  ⟨artifact.name, artifact.interface⟩

def dropMarks : List Char → List Char
  | '0' :: 'x' :: rest => dropMarks rest
  | digits => digits

/-- The bytecode's size in bytes. -/
def size (artifact : Artifact) : Nat :=
  (String.ofList (dropMarks artifact.bytecode.toList)).utf8ByteSize / 2

def toJson (artifact : Artifact) : Json :=
  .object [
    ("name", .string artifact.name),
    ("language", .string artifact.language.tag),
    ("compiler_version", .string artifact.version),
    ("source_path", .string artifact.sourcePath.text),
    ("abi", Item.listToJson artifact.interface),
    ("bytecode", .string artifact.bytecode),
    ("fingerprint", .string artifact.fingerprint.text)]

def isNull : Json → Bool
  | .null => true
  | _ => false

def languageOf? (value : Json) : Option Language := do
  Language.ofTag? (← case? isNull value)

def ofJson? (value : Json) : Option Artifact := do
  match ← fields? ["name", "language", "compiler_version", "source_path", "abi", "bytecode",
      "fingerprint"] value with
  | [name, language, version, path, interface, bytecode, fingerprint] =>
    return {
      name := ← required? asString? name
      language := ← required? languageOf? language
      version := ← required? asString? version
      sourcePath := ⟨← required? asString? path⟩
      interface := ← required? Item.manyOfJson? interface
      bytecode := ← required? asString? bytecode
      fingerprint := ⟨← required? asString? fingerprint⟩ }
  | _ => none

def ofText? (text : String) : Option Artifact :=
  (scan? text).bind ofJson?

end Artifact
end ContractBuild
