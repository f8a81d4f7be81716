import SampleMethods.Proofs.Source.Enclosure
import SampleMethods.Proofs.Source.Formatting
import SampleMethods.Proofs.Source.OneFile

/-!
# What the methods of a file look like

Whoever takes the methods of a file further relies on their shape: no name comes up
twice, they stand in the strict order of their lines and names, they carry the path of
the file, their lines are lines of the text, and their tags are words in strict order.
Every analysis that reads its text as a script gives such methods, whatever the
strategy and with tags or without (`analyze_isListing`).

The lines need no promise of the grammar: a position behind the end of the text is on
its last line, and a span that ends before it starts covers the line of its start.
-/

set_option autoImplicit false

namespace SampleMethods

/-- The record of a method in a file with the text, at the path. -/
structure Method.IsRecord (text : List Char) (path : String) (method : Method) : Prop where
  inFile : method.sourcePath = path
  start : 1 ≤ method.startLine.toNat
  ordered : method.startLine.toNat ≤ method.endLine.toNat
  stop : method.endLine.toNat ≤ min (1 + Text.lineEnds text) (2 ^ 32 - 1)
  tagsSorted : method.regionTags.Pairwise (· < ·)
  tags : ∀ tag ∈ method.regionTags, Marker.IsTag tag

/-- The methods of a file with the text, at the path, as an analysis lists them. -/
structure Source.IsListing (text : List Char) (path : String) (methods : List Method) : Prop where
  distinct : (methods.map (·.name)).Nodup
  sorted : methods.Pairwise fun earlier later =>
    earlier.startLine.toNat < later.startLine.toNat ∨
      earlier.startLine = later.startLine ∧ earlier.name < later.name
  records : ∀ method ∈ methods, method.IsRecord text path

/-! ## Lines -/

theorem Method.lines_of_linesOf {text : List Char} {method : Method} {span : Script.Span}
    (lines : (method.startLine, method.endLine) = linesOf text span) :
    1 ≤ method.startLine.toNat ∧ method.startLine.toNat ≤ method.endLine.toNat ∧
      method.endLine.toNat ≤ min (1 + Text.lineEnds text) (2 ^ 32 - 1) := by
  obtain ⟨startEq, endEq⟩ := Prod.mk.inj lines
  rw [startEq, endEq, LineNumber.toNat_lower]
  have start := LineNumber.ofPosition_le_lineEnds text span.start
  have stop := LineNumber.ofPosition_le_lineEnds text span.stop
  exact ⟨LineNumber.one_le_ofPosition text span.start, le_max_left _ _, max_le start stop⟩

/-! ## Tags -/

/-- Regions have the tags of their markers. -/
theorem Region.isTag_of_mem_extract {text : List Char} {region : Region}
    (isRegion : region ∈ extract text) : Marker.IsTag region.tag := by
  obtain ⟨first, _, isPair, _⟩ := mem_extract_iff.mp isRegion
  obtain ⟨_, _, _, _, isEdge⟩ := markAt_marks.mp isPair.start
  exact Marker.isTag_of_tag? (tag?_of_edgeOf? isEdge)

namespace Source

variable {text : List Char} {path : String} {script : Script.Module}

/-! ## Methods -/

theorem methodsOf_sorted (options : Options) :
    (methodsOf options text path script).Pairwise (Method.keyInFile · < Method.keyInFile ·) := by
  obtain ⟨strategy, regionTags⟩ := options
  cases regionTags with
  | false => exact methodsOf_strictlySorted strategy text path script
  | true =>
      -- Tags are no part of the key.
      rw [methodsOf_tagged]
      exact List.pairwise_map.mpr (methodsOf_strictlySorted strategy text path script)

theorem exists_lines_of_mem {options : Options} {method : Method}
    (member : method ∈ methodsOf options text path script) :
    ∃ span, (method.startLine, method.endLine) = Method.linesOf text span := by
  obtain ⟨strategy, regionTags⟩ := options
  cases regionTags with
  | false =>
      obtain ⟨span, _, lines⟩ := Strategy.exists_recordsAt (List.mem_mergeSort.mp member)
      exact ⟨span, lines⟩
  | true =>
      obtain ⟨span, _, lines⟩ := exists_recordsAt member
      exact ⟨span, lines⟩

theorem tags_of_mem {options : Options} {method : Method}
    (member : method ∈ methodsOf options text path script) :
    method.regionTags.Pairwise (· < ·) ∧ ∀ tag ∈ method.regionTags, Marker.IsTag tag := by
  obtain ⟨strategy, regionTags⟩ := options
  cases regionTags with
  | false =>
      rw [regionTags_of_mem_methodsOf member]
      exact ⟨.nil, fun _ isTag => absurd isTag List.not_mem_nil⟩
  | true =>
      refine ⟨?_, fun tag isTag => ?_⟩
      · rw [methodsOf_tagged] at member
        obtain ⟨bare, _, rfl⟩ := List.mem_map.mp member
        exact Region.attachTo_sorted _ bare
      · obtain ⟨region, isRegion, _, rfl⟩ := (mem_regionTags_iff member).mp isTag
        exact Region.isTag_of_mem_extract isRegion

/-- **Every analysis lists methods in the one shape.** A text that is read as a script has such
methods, for each strategy, with tags or without: no two of one name, in the strict order of lines
and names, with the path as it is, on lines of the text, and with tags in strict order that are
words without a closing bracket. -/
theorem analyze_isListing (parsed : parse text path = .ok script) (options : Options) :
    ∃ methods, analyze options text path = .ok methods ∧ IsListing text path methods := by
  have ofOneFile := methodsOf_ofOneFile options text path script
  refine ⟨_, analyze_of_parse parsed options, ofOneFile.distinct, ?_, fun method member => ?_⟩
  · refine (methodsOf_sorted options).imp fun {earlier later} below => ?_
    rcases Prod.Lex.toLex_lt_toLex.mp below with above | ⟨sameLine, nameBelow⟩
    · exact .inl above
    · exact .inr ⟨LineNumber.toNat_injective sameLine, nameBelow⟩
  · obtain ⟨span, lines⟩ := exists_lines_of_mem member
    obtain ⟨start, ordered, stop⟩ := Method.lines_of_linesOf lines
    obtain ⟨tagsSorted, tags⟩ := tags_of_mem member
    exact ⟨ofOneFile.sourcePath method member, start, ordered, stop, tagsSorted, tags⟩

/-- Two functions on one line, in two regions that end in the order in which they start. -/
def sharedLine : List Char :=
  ("// [START b]\n// [START a]\nfunction y() {} function x() {}\n// [END b]\n// [END a]\n" ++
    "y(x());").toList

theorem analyze_isListing_sharedLine :
    ∃ script methods, parse sharedLine "a.js" = .ok script ∧
      analyze ⟨.auto, true⟩ sharedLine "a.js" = .ok methods ∧
      methods.map (·.name) = ["x", "y"] ∧ IsListing sharedLine "a.js" methods := by
  obtain ⟨script, parsed, found⟩ : ∃ script, parse sharedLine "a.js" = .ok script ∧
      Strategy.auto.extract sharedLine "a.js" script =
        [⟨"y", "a.js", .ofNat 3, .ofNat 3, []⟩, ⟨"x", "a.js", .ofNat 3, .ofNat 3, []⟩] :=
    exists_parse (by decide +kernel)
  obtain ⟨methods, analyzed, isListing⟩ := analyze_isListing parsed ⟨.auto, true⟩
  refine ⟨script, methods, parsed, analyzed, ?_, isListing⟩
  rw [analyze_of_parse parsed] at analyzed
  cases analyzed
  rw [methodsOf_tagged, methodsOf_untagged, found, Method.sortInFile_pair]
  rfl

end Source

end SampleMethods
