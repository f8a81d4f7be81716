import SampleMethods.Proofs.Json.Layout
import SampleMethods.Proofs.LineNumber
import SampleMethods.Proofs.Text.Line
import SampleMethods.Report

/-!
# Reports are read back

The list report is a document from which the methods are read back, and the lines report
has a line for each method from which the method is read back. Both hold for every list of
methods, whatever characters their texts have, and although no tags are written for a
method without tags.
-/

set_option autoImplicit false

namespace SampleMethods

open Json Json.Reader Json.Decoder

namespace Method

variable (layout : Layout) (method : Method)

/-- The members of a record that are written whatever the method is. -/
def fixedMembers : List (Shape.Given Method) :=
  [⟨"name", (layout.write (.string method.name)).toList,
      fun record => { record with name := method.name }⟩,
    ⟨"source_path", (layout.write (.string method.sourcePath)).toList,
      fun record => { record with sourcePath := method.sourcePath }⟩,
    ⟨"start_line", (layout.write (.number (.natural method.startLine.toNat))).toList,
      fun record => { record with startLine := method.startLine }⟩,
    ⟨"end_line", (layout.write (.number (.natural method.endLine.toNat))).toList,
      fun record => { record with endLine := method.endLine }⟩]

/-- The member with the tags. -/
def tagsMember : Shape.Given Method :=
  ⟨"region_tags", (layout.write (.array (method.regionTags.map .string))).toList,
    fun record => { record with regionTags := method.regionTags }⟩

/-- The members of the record of a method. -/
def members : List (Shape.Given Method) :=
  fixedMembers layout method ++ if method.regionTags.isEmpty then [] else [tagsMember layout method]

/-! ## The members are read -/

theorem takes_name (text : String) :
    Takes 1 Decoder.string.reader (layout.write (.string text)).toList text := by
  rw [Layout.write_string]
  exact takes_string text

theorem takes_line (line : LineNumber) :
    Takes 1 lineDecoder.reader (layout.write (.number (.natural line.toNat))).toList line := by
  have taken : Takes 1 lineDecoder.reader (Nat.toDigits 10 line.toNat) (LineNumber.ofNat line.toNat) :=
    takes_map (takes_bounded line.fits (by decide) "u32") LineNumber.ofNat
  rwa [LineNumber.ofNat_toNat, ← layout.toList_write_natural] at taken

theorem takes_tags (tags : List String) :
    Takes 1 (Decoder.list .string).reader (layout.write (.array (tags.map .string))).toList tags := by
  refine layout.takes_write_array fun tag _ => ?_
  rw [Layout.write_string]
  exact takes_string tag

theorem fits_of_mem_members {given : Shape.Given Method} (member : given ∈ members layout method) :
    given.Fits 1 shape := by
  have fixed : ∀ given ∈ fixedMembers layout method, given.Fits 1 shape := by
    intro given member
    simp only [fixedMembers, List.mem_cons, List.not_mem_nil, or_false] at member
    rcases member with rfl | rfl | rfl | rfl
    · exact ⟨_, rfl, takes_map (takes_name layout method.name) _⟩
    · exact ⟨_, rfl, takes_map (takes_name layout method.sourcePath) _⟩
    · exact ⟨_, rfl, takes_map (takes_line layout method.startLine) _⟩
    · exact ⟨_, rfl, takes_map (takes_line layout method.endLine) _⟩
  rw [members] at member
  split_ifs at member
  · exact fixed given (by simpa using member)
  · rcases List.mem_append.mp member with isFixed | isTags
    · exact fixed given isFixed
    · rw [List.mem_singleton.mp isTags]
      exact ⟨_, rfl, takes_map (takes_tags layout method.regionTags) _⟩

/-! ## The record is read -/

theorem toList_write_toJson :
    (layout.write method.toJson).toList =
      '\x7b' :: layout.spacing.behindOpening '\x7d'
        ((members layout.inner method).map fun member =>
          layout.spacing.member member.name member.text) := by
  rw [toJson, Layout.toList_write_object, members]
  split_ifs
  · rfl
  · rfl

/-- No name comes twice. -/
theorem nodup_members : ((members layout method).map (·.name)).Nodup := by
  rw [members]
  split_ifs
  · exact (by decide : ["name", "source_path", "start_line", "end_line"].Nodup)
  · exact (by decide : ["name", "source_path", "start_line", "end_line", "region_tags"].Nodup)

/-- No required field is missing. -/
theorem required_mem_members {field : Decoder.Field Method} (isField : field ∈ shape.fields)
    (required : field.required = true) : field.name ∈ (members layout method).map (·.name) := by
  rw [members, List.map_append]
  refine List.mem_append_left _ ?_
  change field.name ∈ ["name", "source_path", "start_line", "end_line"]
  simp only [shape, List.mem_cons, List.not_mem_nil, or_false] at isField
  rcases isField with rfl | rfl | rfl | rfl | rfl
  · exact .head _
  · exact .tail _ (.head _)
  · exact .tail _ (.tail _ (.head _))
  · exact .tail _ (.tail _ (.tail _ (.head _)))
  · cases required

/-- The members make the method out of the blank record. -/
theorem foldl_members :
    (members layout method).foldl (fun record member => member.change record) shape.blank =
      method := by
  obtain ⟨name, sourcePath, startLine, endLine, regionTags⟩ := method
  cases regionTags with
  | nil => rfl
  | cons tag tags => rfl

/-- **A method is read from its record**, in every layout. -/
theorem takes_method : Takes 2 decoder.reader (layout.write method.toJson).toList method := by
  have taken : Takes (1 + 1) (record shape).reader _ _ :=
    Shape.takes_record layout.spacing (fun given => fits_of_mem_members layout.inner method)
      (nodup_members layout.inner method)
      (fun field isField required => required_mem_members layout.inner method isField required)
  rw [foldl_members, ← toList_write_toJson] at taken
  exact taken

/-- The record of a method is on one line, whatever characters its texts have. -/
theorem onOneLine_compact : OnOneLine method.toJson.compact.toList := by
  have strings : ∀ text, OnOneLine (Layout.onOneLine.write (.string text)).toList := by
    intro text
    rw [Layout.write_string]
    exact onOneLine_quoted text
  have numbers : ∀ number,
      OnOneLine (Layout.onOneLine.write (.number (.natural number))).toList := by
    intro number
    rw [Layout.toList_write_natural]
    exact onOneLine_toDigits number
  have tags : OnOneLine
      (Layout.onOneLine.write (.array (method.regionTags.map .string))).toList := by
    refine Layout.onOneLine_write_array fun item member => ?_
    obtain ⟨tag, _, rfl⟩ := List.mem_map.mp member
    exact strings tag
  refine Layout.onOneLine_write_object fun member isMember => ?_
  rcases List.mem_append.mp isMember with isFixed | isTags
  · simp only [List.mem_cons, List.not_mem_nil, or_false] at isFixed
    rcases isFixed with rfl | rfl | rfl | rfl
    · exact strings method.name
    · exact strings method.sourcePath
    · exact numbers method.startLine.toNat
    · exact numbers method.endLine.toNat
  · split_ifs at isTags
    · cases isTags
    · rw [List.mem_singleton.mp isTags]
      exact tags

/-- The tags are a member of the record just if there are any. -/
theorem member?_region_tags :
    method.toJson.member? "region_tags" =
      if method.regionTags.isEmpty then none else some (.array (method.regionTags.map .string)) := by
  rw [toJson]
  split_ifs
  · rfl
  · rfl

end Method

namespace Report

variable (methods : List Method)

/-- The list report is a document from which the methods are read. -/
theorem ofText_list : (Decoder.list Method.decoder).ofText (list methods) = .ok methods := by
  have taken : Takes 3 (Decoder.list Method.decoder).reader (list methods).toList methods :=
    (Layout.overLines 0).takes_write_array fun method _ => Method.takes_method _ method
  exact taken.run (by decide)

/-- A line of the lines report is a document from which its method is read. -/
theorem ofText_line (method : Method) :
    Method.decoder.ofText method.toJson.compact = .ok method :=
  (Method.takes_method .onOneLine method).run (by decide)

/-- The lines of the lines report are the records. -/
theorem splitLines_lines :
    Text.splitLines (lines methods).toList =
      methods.map fun method => method.toJson.compact.toList := by
  rw [lines, String.toList_join, List.flatMap_map]
  induction methods with
  | nil => rfl
  | cons method methods ih =>
      have onOneLine := method.onOneLine_compact
      rw [List.flatMap_cons, String.toList_append, List.append_assoc, List.map_cons, ← ih]
      exact Text.splitLines_append_of_not_mem (onOneLine.not_mem (by decide))
        (onOneLine.not_mem (by decide)) _

/-- Records on a line each are read one by one. -/
theorem mapM_ofText_lines :
    (Text.splitLines (lines methods).toList).mapM
      (fun line => Method.decoder.ofText (String.ofList line)) = .ok methods := by
  rw [splitLines_lines]
  induction methods with
  | nil => rfl
  | cons method methods ih =>
      rw [List.map_cons, List.mapM_cons, String.ofList_toList, ofText_line, ih]
      rfl

/-- **Both reports are read back, so neither of them loses anything.** The lines report is a
line for each method, and there is no other line feed in it. Tags are left out where there
are none. -/
theorem reports_read_back :
    (Decoder.list Method.decoder).ofText (list methods) = .ok methods ∧
    (∃ texts, Text.splitLines (lines methods).toList = texts ∧ texts.length = methods.length ∧
      (lines methods).toList = texts.flatMap (· ++ ['\n']) ∧ (∀ text ∈ texts, '\n' ∉ text) ∧
      texts.mapM (fun text => Method.decoder.ofText (String.ofList text)) = .ok methods) ∧
    (∀ others, (list others = list methods ↔ others = methods) ∧
      (lines others = lines methods ↔ others = methods)) ∧
    ∀ method ∈ methods, method.toJson.member? "region_tags" =
      if method.regionTags = [] then none else some (.array (method.regionTags.map .string)) := by
  refine ⟨ofText_list methods, ⟨_, splitLines_lines methods, List.length_map _, ?_, ?_, ?_⟩,
    fun others => ⟨⟨fun same => ?_, fun same => same ▸ rfl⟩, ⟨fun same => ?_, fun same => same ▸ rfl⟩⟩,
    fun method _ => ?_⟩
  · rw [lines, String.toList_join, List.flatMap_map, List.flatMap_map]
    simp only [String.toList_append]
    rfl
  · intro text member
    obtain ⟨method, _, rfl⟩ := List.mem_map.mp member
    exact method.onOneLine_compact.not_mem (by decide)
  · rw [← splitLines_lines]
    exact mapM_ofText_lines methods
  · have read := ofText_list others
    rw [same, ofText_list] at read
    exact (Except.ok.inj read).symm
  · have read := mapM_ofText_lines others
    rw [same, mapM_ofText_lines] at read
    exact (Except.ok.inj read).symm
  · rw [Method.member?_region_tags]
    simp only [List.isEmpty_iff]

end Report

end SampleMethods
