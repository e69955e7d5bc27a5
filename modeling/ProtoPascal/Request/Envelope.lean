import ProtoPascal.Request.Generation
import ProtoPascal.Schema.Encoded

/-!
The exchange with a schema compiler: an encoded request with descriptors and the names of the files
to generate, and an encoded response with the generated files or the text of an error.
-/

namespace ProtoPascal.Request

open Schema (FileDescriptor)
open Wire

/-- A request of a schema compiler. -/
structure CompilerRequest where
  requested : List String := []
  parameter : Option String := none
  descriptors : List FileDescriptor := []

/-- A file of a response. -/
structure ResponseFile where
  name : String
  content : String
deriving DecidableEq, Repr

/-- The response to a schema compiler. -/
structure Response where
  error : Option String := none
  /-- The features of schemas that the generator supports, as a sum of powers of two. -/
  supportedFeatures : Nat
  files : List ResponseFile := []
deriving DecidableEq, Repr

/-- The request that bytes encode. -/
def CompilerRequest.decode (bytes : List UInt8) : Except Error CompilerRequest :=
  match Wire.decode .request bytes with
  | .ok records => .ok {
      requested := textsAt 1 records
      parameter := textAt? 2 records
      descriptors := (messagesAt 15 records).map FileDescriptor.ofRecords }
  | .error failure => .error (.undecodable failure)

/-- The generator supports optional fields of the third version of the schema language. -/
def supportedFeatures : Nat := 1

/-- The units for a request. -/
def CompilerRequest.generate (request : CompilerRequest) : Traced (List GeneratedUnit) := do
  let options ← Options.parse (request.parameter.getD "")
  Request.generate request.descriptors request.requested options

/-- The response to a request: files, or the text of the error. -/
def respond (request : CompilerRequest) : Response :=
  match request.generate.result with
  | .ok generated =>
    { supportedFeatures
      files := generated.map fun entry => { name := entry.path, content := entry.content } }
  | .error error => { supportedFeatures, error := some error.message }

/-- The bytes that encode a file of a response. -/
def ResponseFile.encode (file : ResponseFile) : List UInt8 :=
  writeText 1 file.name ++ writeText 15 file.content

/-- The bytes that encode a response. -/
def Response.encode (response : Response) : List UInt8 :=
  (response.error.map (writeText 1)).getD []
    ++ writeNumber 2 response.supportedFeatures
    ++ response.files.flatMap fun file => writeBytes 15 file.encode

/-- The encoded response to an encoded request. -/
def answer (bytes : List UInt8) : Except Error (List UInt8) := do
  let request ← CompilerRequest.decode bytes
  return (respond request).encode

end ProtoPascal.Request
