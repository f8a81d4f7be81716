import SampleMethods.Proofs.Source.Enclosure
import SampleMethods.Proofs.Wrapper.Delegation

/-!
# The lines of wrapped methods

A grammar gives each construct a span within that of the construct around it. If it
does so on the way from the wrapper to what its body declares, the methods that are
found in the wrapper stand on its lines: a position further on is never on a line
further up, and that a line can be too far down to be counted changes nothing about
that.

So a region that covers the wrapper covers the methods in it, and where the wrapper is
a method itself, for a flat sample, each tag of it is a tag of all methods in it
(`extract_standsWithin`).
-/

set_option autoImplicit false

namespace SampleMethods

open Script

/-! ## Spans that nest -/

/-- The span lies within another one. -/
structure Script.Span.IsWithin (span outer : Span) : Prop where
  start : outer.start ≤ span.start
  stop : span.stop ≤ outer.stop

instance (span outer : Span) : Decidable (span.IsWithin outer) :=
  decidable_of_iff (outer.start ≤ span.start ∧ span.stop ≤ outer.stop)
    ⟨fun ⟨start, stop⟩ => ⟨start, stop⟩, fun ⟨start, stop⟩ => ⟨start, stop⟩⟩

theorem Script.Span.IsWithin.trans {span middle outer : Span} (inner : span.IsWithin middle)
    (around : middle.IsWithin outer) : span.IsWithin outer :=
  ⟨around.start.trans inner.start, inner.stop.trans around.stop⟩

namespace Script.Node

/-- In the node and in all nodes that are at most so many steps below it no span ends before it
starts, and each lies within that of the node one step above. -/
def NestsTo : ℕ → Node → Prop
  | 0, node => node.span.start ≤ node.span.stop
  | depth + 1, node => node.span.start ≤ node.span.stop ∧
      ∀ part ∈ node.parts, part.span.IsWithin node.span ∧ part.NestsTo depth

instance decidableNestsTo : ∀ (depth : ℕ) (node : Node), Decidable (node.NestsTo depth)
  | 0, node => inferInstanceAs (Decidable (node.span.start ≤ node.span.stop))
  | depth + 1, node =>
    have := decidableNestsTo depth
    inferInstanceAs (Decidable (node.span.start ≤ node.span.stop ∧
      ∀ part ∈ node.parts, part.span.IsWithin node.span ∧ part.NestsTo depth))

theorem NestsTo.ordered {depth : ℕ} {node : Node} (nests : node.NestsTo depth) :
    node.span.start ≤ node.span.stop := by
  cases depth with
  | zero => exact nests
  | succ depth => exact nests.1

/-- A part of a part lies within the node, and nests one step less deeply than the part. -/
theorem NestsTo.ofPart {depth : ℕ} {node part inner : Node} (nests : node.NestsTo (depth + 2))
    (isPart : part ∈ node.parts) (isInner : inner ∈ part.parts) :
    inner.span.IsWithin node.span ∧ inner.NestsTo depth := by
  obtain ⟨within, partNests⟩ := nests.2 part isPart
  obtain ⟨innerWithin, innerNests⟩ := partNests.2 inner isInner
  exact ⟨innerWithin.trans within, innerNests⟩

end Script.Node

/-- What statements declare is a part of one of them. -/
theorem Invocation.DeclaresAt.exists_part {statements : List Node} {position : Position}
    {name : String} {span : Span} (declares : DeclaresAt statements position name span) :
    ∃ statement ∈ statements, ∃ declared ∈ statement.parts, declared.span = span := by
  cases declares with
  | ofFunction atIndex =>
      exact ⟨_, List.mem_of_getElem? atIndex, _, List.mem_singleton_self _, rfl⟩
  | ofDeclarator atIndex isDeclarator _ _ =>
      exact ⟨_, List.mem_of_getElem? atIndex, _, List.mem_of_getElem? isDeclarator, rfl⟩

/-! ## Lines that nest -/

/-- The method stands on lines of another one. -/
structure Method.StandsWithin (method other : Method) : Prop where
  start : other.startLine.toNat ≤ method.startLine.toNat
  stop : method.endLine.toNat ≤ other.endLine.toNat

theorem Method.ofSpan_standsWithin (text : List Char) (sourcePath name outerName : String)
    {span outer : Span} (within : span.IsWithin outer) (ordered : span.start ≤ span.stop) :
    (ofSpan text sourcePath name span).StandsWithin
      (ofSpan text sourcePath outerName outer) := by
  constructor
  · exact LineNumber.ofPosition_le within.start
  · have start : (LineNumber.ofPosition text span.start).toNat ≤
        (LineNumber.ofPosition text outer.stop).toNat :=
      LineNumber.ofPosition_le (ordered.trans within.stop)
    have stop : (LineNumber.ofPosition text span.stop).toNat ≤
        (LineNumber.ofPosition text outer.stop).toNat := LineNumber.ofPosition_le within.stop
    simp only [ofSpan, linesOf, LineNumber.toNat_lower]
    exact max_le (start.trans (le_max_right _ _)) (stop.trans (le_max_right _ _))

theorem Method.ofSpan_ordered (text : List Char) (sourcePath name : String) (span : Span) :
    (ofSpan text sourcePath name span).startLine.toNat ≤
      (ofSpan text sourcePath name span).endLine.toNat := by
  simp only [ofSpan, linesOf, LineNumber.toNat_lower]
  exact le_max_left _ _

/-- A region that covers a method covers what stands on its lines. -/
theorem Region.encloses_of_standsWithin {region : Region} {method other : Method}
    (encloses : region.encloses other = true) (within : method.StandsWithin other) :
    region.encloses method = true := by
  rw [encloses_iff] at encloses ⊢
  exact ⟨encloses.1.trans within.start, within.stop.trans encloses.2⟩

/-! ## Methods in the wrapper -/

theorem Strategy.extract_wrapped (text : List Char) (sourcePath : String)
    (script : Script.Module) :
    wrapped.extract text sourcePath script = Wrapper.extract text sourcePath script := by
  rw [extract, layouts, extractFirst, Layout.extract, extractFirst]
  cases Wrapper.extract text sourcePath script <;> rfl

namespace Wrapper

variable {script : Script.Module} {wrapper : Wrapper}

/-- The wrapper as a method of its file. -/
def asMethod (text : List Char) (sourcePath : String) (wrapper : Wrapper) : Method :=
  .ofSpan text sourcePath wrapper.name wrapper.function.span

/-- The body of a wrapper is one step below it. -/
theorem FirstDefines.exists_block (first : FirstDefines script wrapper) :
    ∃ block ∈ wrapper.function.parts, block.parts = wrapper.body := by
  obtain ⟨_, _, _, _, defines, _⟩ := first
  cases defines with
  | declaration =>
      exact ⟨_, List.mem_cons_of_mem _ (List.mem_singleton_self _), rfl⟩

theorem FirstDefines.declared_isWithin (first : FirstDefines script wrapper)
    (nests : wrapper.function.NestsTo 3) {position : Invocation.Position} {name : String}
    {span : Span} (declares : Invocation.DeclaresAt wrapper.body position name span) :
    span.IsWithin wrapper.function.span ∧ span.start ≤ span.stop := by
  obtain ⟨block, isBlock, isBody⟩ := first.exists_block
  obtain ⟨statement, isStatement, declared, isDeclared, rfl⟩ := declares.exists_part
  rw [← isBody] at isStatement
  obtain ⟨within, statementNests⟩ := nests.ofPart isBlock isStatement
  obtain ⟨declaredWithin, declaredNests⟩ := statementNests.2 declared isDeclared
  exact ⟨declaredWithin.trans within, declaredNests.ordered⟩

/-- The methods of a wrapper stand on its lines. -/
theorem FirstDefines.standsWithin_of_mem (first : FirstDefines script wrapper)
    (nests : wrapper.function.NestsTo 3) {text : List Char} {sourcePath : String}
    {method : Method} (member : method ∈ extract text sourcePath script) :
    method.StandsWithin (wrapper.asMethod text sourcePath) ∧
      method.startLine.toNat ≤ method.endLine.toNat := by
  rw [first.extract_eq] at member
  obtain ⟨position, span, declares, same⟩ := Invocation.exists_firstDeclares_of_mem_extract member
  obtain ⟨within, ordered⟩ := first.declared_isWithin nests declares.1
  rw [same]
  exact ⟨Method.ofSpan_standsWithin text sourcePath _ _ within ordered,
    Method.ofSpan_ordered text sourcePath _ span⟩

/-- A method that a flat sample has for a declaration has the tags of the regions around that. -/
theorem exists_region_of_recordsAt {text : List Char} {sourcePath : String}
    {regions : List Region} {record : Method} {span : Span}
    (member : record ∈ Region.attach regions (Strategy.direct.extract text sourcePath script))
    (records : Strategy.direct.RecordsAt text sourcePath script record.name span)
    {tag : String} (isTag : tag ∈ record.regionTags) (name : String) :
    ∃ region ∈ regions, region.encloses (.ofSpan text sourcePath name span) = true ∧
      region.tag = tag := by
  obtain ⟨bare, isBare, rfl⟩ := List.mem_map.mp member
  obtain ⟨other, recordsOther, lines⟩ := Strategy.exists_recordsAt isBare
  obtain rfl := records.unique recordsOther
  rw [Region.mem_attachTo, Strategy.extract_untagged bare isBare] at isTag
  rcases isTag with isOwn | ⟨region, isRegion, encloses, rfl⟩
  · cases isOwn
  · refine ⟨region, isRegion, ?_, rfl⟩
    rw [Region.encloses_iff_of_lines lines] at encloses
    rw [Region.encloses_iff_of_lines rfl]
    exact encloses

/-- **Wrapped methods stand on the lines of the wrapper.** Where spans nest from the wrapper down to
what its body declares, three steps below it, every method of the wrapper starts and ends on lines
of it. So a region that covers the wrapper gives its tag to all these methods, and where a method
is found for the wrapper itself, in the module as a flat sample, its tags are among those of each
method in it. -/
theorem extract_standsWithin (first : FirstDefines script wrapper)
    (nests : wrapper.function.NestsTo 3) (text : List Char) (sourcePath : String) :
    (∀ method ∈ extract text sourcePath script,
      (wrapper.asMethod text sourcePath).startLine.toNat ≤ method.startLine.toNat ∧
      method.startLine.toNat ≤ method.endLine.toNat ∧
      method.endLine.toNat ≤ (wrapper.asMethod text sourcePath).endLine.toNat) ∧
    ∀ regions : List Region,
      ∀ method ∈ Region.attach regions (Strategy.wrapped.extract text sourcePath script),
        (∀ region ∈ regions, region.encloses (wrapper.asMethod text sourcePath) = true →
          region.tag ∈ method.regionTags) ∧
        ∀ record ∈ Region.attach regions (Strategy.direct.extract text sourcePath script),
          Strategy.direct.RecordsAt text sourcePath script record.name wrapper.function.span →
            record.regionTags ⊆ method.regionTags := by
  constructor
  · intro method member
    obtain ⟨within, ordered⟩ := first.standsWithin_of_mem nests member
    exact ⟨within.start, ordered, within.stop⟩
  · intro regions method member
    rw [Strategy.extract_wrapped] at member
    obtain ⟨bare, isBare, rfl⟩ := List.mem_map.mp member
    have within := (first.standsWithin_of_mem nests isBare).1
    have ofAround : ∀ region ∈ regions,
        region.encloses (wrapper.asMethod text sourcePath) = true →
          region.tag ∈ (Region.attachTo regions bare).regionTags := by
      intro region isRegion encloses
      have around := Region.encloses_of_standsWithin encloses within
      exact Region.mem_attachTo.mpr (.inr ⟨region, isRegion, around, rfl⟩)
    refine ⟨ofAround, fun record isRecord records tag isTag => ?_⟩
    obtain ⟨region, isRegion, encloses, rfl⟩ :=
      exists_region_of_recordsAt isRecord records isTag wrapper.name
    exact ofAround region isRegion encloses

/-- A function that is called below it and wraps another one, each of them in a region. -/
def wrappedText : List Char :=
  ("// [START a]\nfunction main() \x7b\n  // [START b]\n  function list() {}\n  // [END b]\n" ++
    "  list();\n\x7d\n// [END a]\nmain();\n").toList

/-- The regions of the two functions. -/
def aroundBoth : List Region :=
  [⟨"a", .ofNat 1, .ofNat 8⟩, ⟨"b", .ofNat 3, .ofNat 5⟩]

theorem extract_standsWithin_list :
    ∃ script wrapper, Source.parse wrappedText "a.js" = .ok script ∧
      FirstDefines script wrapper ∧ wrapper.function.NestsTo 3 ∧
      Strategy.direct.RecordsAt wrappedText "a.js" script "main" wrapper.function.span ∧
      extract wrappedText "a.js" script = [⟨"list", "a.js", .ofNat 4, .ofNat 4, []⟩] ∧
      (∀ method ∈ extract wrappedText "a.js" script,
        2 ≤ method.startLine.toNat ∧ method.endLine.toNat ≤ 7) ∧
      ∃ record ∈ Region.attach aroundBoth (Strategy.direct.extract wrappedText "a.js" script),
        "a" ∈ record.regionTags ∧
        ∀ method ∈ Region.attach aroundBoth (Strategy.wrapped.extract wrappedText "a.js" script),
          record.regionTags ⊆ method.regionTags := by
  obtain ⟨script, parsed, wraps⟩ : ∃ script, Source.parse wrappedText "a.js" = .ok script ∧
      ((first? script).any fun wrapper => decide (wrapper.function.NestsTo 3 ∧
        Strategy.direct.RecordsAt wrappedText "a.js" script "main" wrapper.function.span ∧
        wrapper.asMethod wrappedText "a.js" = ⟨"main", "a.js", .ofNat 2, .ofNat 7, []⟩ ∧
        Strategy.direct.extract wrappedText "a.js" script =
          [⟨"main", "a.js", .ofNat 2, .ofNat 7, []⟩] ∧
        extract wrappedText "a.js" script =
          [⟨"list", "a.js", .ofNat 4, .ofNat 4, []⟩])) = true :=
    Source.exists_parse (by decide +kernel)
  obtain ⟨wrapper, found, holds⟩ := (Option.any_eq_true _ _).mp wraps
  obtain ⟨nests, records, atLines, direct, wrapped⟩ := of_decide_eq_true holds
  have first := first?_eq_some_iff.mp found
  obtain ⟨lines, ofRegions⟩ := extract_standsWithin first nests wrappedText "a.js"
  refine ⟨script, wrapper, parsed, first, nests, records, wrapped, fun method member => ?_,
    Region.attachTo aroundBoth ⟨"main", "a.js", .ofNat 2, .ofNat 7, []⟩, ?_, ?_,
    fun method member => ?_⟩
  · have within := lines method member
    rw [atLines] at within
    exact ⟨within.1, within.2.2⟩
  · rw [direct]
    exact List.mem_singleton_self _
  · exact Region.mem_attachTo.mpr (.inr ⟨_, List.mem_cons_self, by decide, rfl⟩)
  · refine (ofRegions aroundBoth method member).2 _ ?_ records
    rw [direct]
    exact List.mem_singleton_self _

end Wrapper

end SampleMethods
