import ContractBuild.Binding.Output
import ContractBuild.Digest
import ContractBuild.Text.Lossy
/-!
Stamps: the digest of all that the last complete generation of bindings was made from. Bindings
are made anew unless the stamp and the files are there.
-/
namespace ContractBuild

/-- What is known of the last generation. -/
structure Stamp where
  generation : Option String
  deriving DecidableEq

namespace Stamp
open Json

def pathIn (cache : Path) : Path :=
  cache.join ⟨"stamps.json"⟩

def ofText? (text : String) : Option Stamp := do
  match ← fields? ["generate"] (← scan? text) with
  | [generation] => return ⟨← optional? asString? generation⟩
  | _ => none

def toText (stamp : Stamp) : String :=
  (Json.object [("generate", ofOption string stamp.generation)]).write 2

/-- The stamp in a file. What cannot be read says nothing. -/
def load (path : Path) : FileAction Stamp := do
  match ← Output.existing? path with
  | none => return ⟨none⟩
  | some content => return ((String.fromUTF8? content).bind ofText?).getD ⟨none⟩

def save (stamp : Stamp) (path : Path) : FileAction Unit := do
  let _ ← Output.writeIfChanged path stamp.toText

end Stamp

/-- What a generation is asked for besides its descriptors. The directory is in the bytes that the system has for
it, which need not be UTF-8. -/
structure BindingOptions where
  directory : ByteArray
  dialect : Dialect
  everyOverload : Bool
  clear : Bool
  deriving DecidableEq

namespace BindingOptions

/-- The release of the generator, which is part of every digest. -/
def release : String := "0.1.0"

def flagByte (flag : Bool) : UInt8 :=
  if flag then 1 else 0

def closed (text : String) : ByteArray :=
  text.toUTF8.push 0

def descriptorBytes : List Descriptor → ByteArray
  | [] => ByteArray.empty
  | descriptor :: descriptors =>
    closed descriptor.name ++ closed (descriptor.toText 0) ++ descriptorBytes descriptors

/-- The bytes that the digest of a generation is made of. -/
def digestBytes (options : BindingOptions) (descriptors : List Descriptor) : ByteArray :=
  closed release ++ closed options.dialect.text
    ++ ⟨#[flagByte options.everyOverload, flagByte options.clear, 0]⟩
    ++ closed (Text.Lossy.decode options.directory) ++ descriptorBytes descriptors

end BindingOptions

namespace BindingExport

def options (exporter : BindingExport) : BindingOptions :=
  ⟨exporter.outDir.text.toUTF8, exporter.dialect, exporter.everyOverload, exporter.clear⟩

/-- The digest of everything that a generation reads. -/
def digest (exporter : BindingExport) (descriptors : List Descriptor) : String :=
  Digest.hexDigest (exporter.options.digestBytes descriptors)

end BindingExport
end ContractBuild
