import SampleMethods.Json.Decoder
import SampleMethods.Method

/-!
# Methods as JSON records

The form in which methods are written to other programs and read back. The
tags of a method are left out when it has none, and members that a record does
not know are left alone.
-/

set_option autoImplicit false

namespace SampleMethods.Method

/-- The record of a method, with its fields in the order in which they are written. -/
def toJson (method : Method) : Json :=
  .object <|
    [("name", .string method.name),
     ("source_path", .string method.sourcePath),
     ("start_line", .number (.natural method.startLine.toNat)),
     ("end_line", .number (.natural method.endLine.toNat))] ++
    if method.regionTags.isEmpty then []
    else [("region_tags", .array (method.regionTags.map .string))]

/-- Line numbers in records. -/
def lineDecoder : Json.Decoder LineNumber :=
  (Json.Decoder.bounded (Nat.pow 2 32) "u32").map LineNumber.ofNat

/-- The shape of the records. -/
def shape : Json.Decoder.Shape Method where
  wanted := "struct SourceMethod"
  blank := ⟨"", "", .ofNat 0, .ofNat 0, []⟩
  fields :=
    [Json.Decoder.field "name" true .string fun name method => { method with name := name },
     Json.Decoder.field "source_path" true .string fun path method => { method with sourcePath := path },
     Json.Decoder.field "start_line" true lineDecoder fun line method => { method with startLine := line },
     Json.Decoder.field "end_line" true lineDecoder fun line method => { method with endLine := line },
     Json.Decoder.field "region_tags" false (.list .string) fun tags method =>
      { method with regionTags := tags }]
  closed := false

/-- Methods as records. -/
def decoder : Json.Decoder Method :=
  .record shape

end SampleMethods.Method
