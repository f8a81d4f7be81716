import SampleMethods.Proofs.Invocation.Extraction
import SampleMethods.Proofs.Region.Place
import SampleMethods.Proofs.Source.Tagging

/-!
# Regions around declarations

Whether a region encloses a method is decided by line numbers, and those of regions
and of methods are counted in two ways. In a text without lone carriage returns the
answer is that of the places in the text: a region whose markers lie around a
declaration encloses its method, and one that a line feed parts from the declaration
does not (`encloses_by_places`). A lone carriage return ends a line for methods and
none for regions, so below a few of them a region misses the function that stands
between its markers (`not_encloses_loneReturns`).
-/

set_option autoImplicit false

namespace SampleMethods

/-- Every character of the span, and its end, lies in front of the position. -/
structure Script.Span.LiesBefore (span : Script.Span) (position : ℕ) : Prop where
  start : span.start ≤ position
  stop : span.stop ≤ position

/-! ## The lines of a declaration -/

namespace Region

section Lines

variable {text : List Char} {region : Region} {method : Method} {span : Script.Span}
  (lines : (method.startLine, method.endLine) = Method.linesOf text span)

include lines

theorem encloses_iff_of_lines :
    region.encloses method = true ↔
      region.startLine.toNat ≤ (LineNumber.ofPosition text span.start).toNat ∧
        (LineNumber.ofPosition text span.start).toNat ≤ region.endLine.toNat ∧
        (LineNumber.ofPosition text span.stop).toNat ≤ region.endLine.toNat := by
  obtain ⟨startEq, endEq⟩ := Prod.mk.inj lines
  rw [encloses_iff, startEq, endEq, LineNumber.toNat_lower, max_le_iff]

variable {first last : ℕ} (runs : region.RunsBetween text first last)

include runs

/-- Markers in front of a declaration and behind it are above and below its lines. -/
theorem encloses_of_around (noLone : Text.NoLoneReturn text) (above : first ≤ span.start)
    (below : span.LiesBefore last) : region.encloses method = true := by
  obtain ⟨startEq, endEq⟩ := runs.lines_eq noLone
  rw [encloses_iff_of_lines lines, startEq, endEq]
  exact ⟨LineNumber.ofPosition_le above, LineNumber.ofPosition_le below.start,
    LineNumber.ofPosition_le below.stop⟩

variable (fits : Text.lineAt text text.length < 2 ^ 32) {feed : ℕ}
  (isFeed : text[feed]? = some '\n')

include fits isFeed

/-- A region that ends above the line of a declaration does not enclose it. -/
theorem not_encloses_of_above (above : last ≤ feed) (below : feed < span.start) :
    region.encloses method = false := by
  have separated := LineNumber.ofPosition_lt fits above isFeed below
  have endsAbove := runs.endLine_le
  rw [← Bool.not_eq_true, encloses_iff_of_lines lines]
  rintro ⟨_, within, _⟩
  omega

/-- A region that starts below the lines of a declaration does not enclose it. -/
theorem not_encloses_of_below (noLone : Text.NoLoneReturn text) (above : span.LiesBefore feed)
    (below : feed < first) : region.encloses method = false := by
  have separated := LineNumber.ofPosition_lt fits above.start isFeed below
  obtain ⟨startEq, _⟩ := runs.lines_eq noLone
  rw [← Bool.not_eq_true, encloses_iff_of_lines lines, startEq]
  rintro ⟨within, _, _⟩
  omega

end Lines

end Region

/-! ## The declaration of a method -/

/-- The span is that of the declaration that a method with the name is recorded for: the first
one of the name in the statements that the strategy looks at. -/
def Strategy.RecordsAt (strategy : Strategy) (text : List Char) (sourcePath : String)
    (script : Script.Module) (name : String) (span : Script.Span) : Prop :=
  ∃ layout position, strategy.layoutFor? text sourcePath script = some layout ∧
    Invocation.FirstDeclares (layout.statements script) position name span

section RecordsAt

variable {strategy : Strategy} {text : List Char} {sourcePath : String} {script : Script.Module}

theorem Strategy.recordsAt_iff {name : String} {span : Script.Span} :
    strategy.RecordsAt text sourcePath script name span ↔
      ((strategy.layoutFor? text sourcePath script).any fun layout =>
        ((Invocation.firstLocated (layout.statements script)).map (·.2)).contains
          ⟨name, span⟩) = true := by
  simp only [RecordsAt, Option.any_eq_true, List.contains_iff_mem, List.mem_map, Prod.exists]
  constructor
  · rintro ⟨layout, position, isLayout, declares⟩
    exact ⟨layout, isLayout, position, _, Invocation.mem_firstLocated.mpr declares, rfl⟩
  · rintro ⟨layout, isLayout, position, _, member, rfl⟩
    exact ⟨layout, position, isLayout, Invocation.mem_firstLocated.mp member⟩

instance (name : String) (span : Script.Span) :
    Decidable (strategy.RecordsAt text sourcePath script name span) :=
  decidable_of_iff _ Strategy.recordsAt_iff.symm

theorem Strategy.RecordsAt.unique {name : String} {span other : Script.Span}
    (one : strategy.RecordsAt text sourcePath script name span)
    (again : strategy.RecordsAt text sourcePath script name other) : span = other := by
  obtain ⟨layout, position, isLayout, declares⟩ := one
  obtain ⟨_, otherPosition, isSame, declaresToo⟩ := again
  cases isLayout.symm.trans isSame
  obtain rfl := declares.position_unique declaresToo
  exact declares.1.span_unique declaresToo.1

/-- Every method of a module is recorded for a declaration, and has the lines of it. -/
theorem Strategy.exists_recordsAt {method : Method}
    (member : method ∈ strategy.extract text sourcePath script) :
    ∃ span, strategy.RecordsAt text sourcePath script method.name span ∧
      (method.startLine, method.endLine) = Method.linesOf text span := by
  rw [extract_eq] at member
  split at member
  · rename_i layout isLayout
    obtain ⟨position, span, declares, same⟩ :=
      Invocation.exists_firstDeclares_of_mem_extract member
    refine ⟨span, ⟨layout, position, isLayout, declares⟩, ?_⟩
    rw [same]
    rfl
  · cases member

theorem Source.exists_recordsAt {method : Method}
    (member : method ∈ methodsOf ⟨strategy, true⟩ text sourcePath script) :
    ∃ span, strategy.RecordsAt text sourcePath script method.name span ∧
      (method.startLine, method.endLine) = Method.linesOf text span := by
  rw [methodsOf_tagged, methodsOf_untagged] at member
  obtain ⟨bare, isBare, rfl⟩ := List.mem_map.mp member
  have isFound : bare ∈ strategy.extract text sourcePath script := List.mem_mergeSort.mp isBare
  have recorded := Strategy.exists_recordsAt isFound
  exact recorded

end RecordsAt

namespace Source

/-- **Regions enclose methods by where they stand in the text.** A method is recorded for a
declaration, and a region runs between two markers. Where no carriage return stands alone, a region
whose markers lie around the declaration encloses the method, which has its tag. Where the lines can
be counted, a region does not enclose a method when a line feed parts its finish marker from the
declaration below, nor, without lone carriage returns, its start marker from the declaration
above. -/
theorem encloses_by_places {text : List Char} {path : String} {script : Script.Module}
    (parsed : parse text path = .ok script) (strategy : Strategy) :
    ∃ tagged, analyze ⟨strategy, true⟩ text path = .ok tagged ∧
      ∀ method ∈ tagged, (∃ span, strategy.RecordsAt text path script method.name span) ∧
        ∀ span, strategy.RecordsAt text path script method.name span →
          (method.startLine, method.endLine) = Method.linesOf text span ∧
          ∀ region ∈ Region.extract text, (∃ first last, region.RunsBetween text first last) ∧
            ∀ first last, region.RunsBetween text first last →
              (Text.NoLoneReturn text → first ≤ span.start → span.LiesBefore last →
                region.encloses method = true ∧ region.tag ∈ method.regionTags) ∧
              (Text.lineAt text text.length < 2 ^ 32 → ∀ feed, text[feed]? = some '\n' →
                (last ≤ feed → feed < span.start → region.encloses method = false) ∧
                (Text.NoLoneReturn text → span.LiesBefore feed → feed < first →
                  region.encloses method = false)) := by
  refine ⟨_, analyze_of_parse parsed ⟨strategy, true⟩, fun method member => ?_⟩
  obtain ⟨span, records, lines⟩ := exists_recordsAt member
  refine ⟨⟨span, records⟩, fun other recordsOther => ?_⟩
  obtain rfl := records.unique recordsOther
  refine ⟨lines, fun region isRegion => ⟨Region.exists_runsBetween isRegion, ?_⟩⟩
  intro first last runs
  refine ⟨fun noLone above below => ?_, fun fits feed isFeed => ⟨?_, ?_⟩⟩
  · have encloses := Region.encloses_of_around lines runs noLone above below
    exact ⟨encloses, (mem_regionTags_iff member).mpr ⟨region, isRegion, encloses, rfl⟩⟩
  · exact Region.not_encloses_of_above lines runs fits isFeed
  · exact Region.not_encloses_of_below lines runs fits isFeed

/-- The region of the tag `a` from the first line to the third one. -/
def threeLines : Region :=
  ⟨"a", .ofNat 1, .ofNat 3⟩

/-- A function between the markers of a region. -/
def pairedReturns : List Char :=
  "// [START a]\r\nfunction f() {}\r\n// [END a]\r\nf();\r\n".toList

/-- The region of the function stands between its markers here as well, but below two carriage
returns. -/
def loneReturns : List Char :=
  "\r\r// [START a]\nfunction f() {}\n// [END a]\nf();\n".toList

theorem threeLines_runsBetween_pairedReturns : threeLines.RunsBetween pairedReturns 3 34 :=
  ⟨1, 3, ⟨by decide, by decide, by decide, by decide⟩, rfl, rfl,
    ⟨by decide, ['a'], pairedReturns.drop 12, by decide, by decide, by decide, by decide⟩,
    ⟨by decide, ['a'], pairedReturns.drop 41, by decide, by decide, by decide, by decide⟩⟩

theorem threeLines_runsBetween_loneReturns : threeLines.RunsBetween loneReturns 5 34 :=
  ⟨1, 3, ⟨by decide, by decide, by decide, by decide⟩, rfl, rfl,
    ⟨by decide, ['a'], loneReturns.drop 14, by decide, by decide, by decide, by decide⟩,
    ⟨by decide, ['a'], loneReturns.drop 41, by decide, by decide, by decide, by decide⟩⟩

theorem encloses_by_places_pairedReturns :
    ∃ script tagged, parse pairedReturns "a.js" = .ok script ∧
      analyze ⟨.auto, true⟩ pairedReturns "a.js" = .ok tagged ∧
      tagged.map (·.name) = ["f"] ∧
      ∀ method ∈ tagged, threeLines.encloses method = true ∧ "a" ∈ method.regionTags := by
  obtain ⟨script, parsed, records⟩ : ∃ script, parse pairedReturns "a.js" = .ok script ∧
      Strategy.auto.RecordsAt pairedReturns "a.js" script "f" ⟨14, 29⟩ :=
    exists_parse (by decide +kernel)
  obtain ⟨tagged, analyzed, each⟩ := encloses_by_places parsed .auto
  have names : (analyze ⟨.auto, true⟩ pairedReturns "a.js").toOption.map (·.map (·.name)) =
      some ["f"] := by decide +kernel
  rw [analyzed] at names
  have isOnly : tagged.map (·.name) = ["f"] := Option.some.inj names
  refine ⟨script, tagged, parsed, analyzed, isOnly, fun method member => ?_⟩
  have isF : method.name = "f" := by
    have named : method.name ∈ tagged.map (·.name) := List.mem_map.mpr ⟨method, member, rfl⟩
    rw [isOnly] at named
    exact List.mem_singleton.mp named
  have recordsMethod : Strategy.auto.RecordsAt pairedReturns "a.js" script method.name ⟨14, 29⟩ :=
    isF ▸ records
  have runs := threeLines_runsBetween_pairedReturns
  have places := ((each method member).2 _ recordsMethod).2 threeLines runs.mem_extract
  exact (places.2 3 34 runs).1 (by decide) (by decide) ⟨by decide, by decide⟩

/-- **Below lone carriage returns a region misses the function between its markers.** -/
theorem not_encloses_loneReturns :
    ∃ script method, parse loneReturns "a.js" = .ok script ∧
      analyze ⟨.auto, true⟩ loneReturns "a.js" = .ok [method] ∧
      Strategy.auto.RecordsAt loneReturns "a.js" script method.name ⟨15, 30⟩ ∧
      threeLines ∈ Region.extract loneReturns ∧ threeLines.RunsBetween loneReturns 5 34 ∧
      5 ≤ 15 ∧ Script.Span.LiesBefore ⟨15, 30⟩ 34 ∧
      threeLines.encloses method = false ∧ "a" ∉ method.regionTags := by
  obtain ⟨script, parsed, records⟩ : ∃ script, parse loneReturns "a.js" = .ok script ∧
      Strategy.auto.RecordsAt loneReturns "a.js" script "f" ⟨15, 30⟩ :=
    exists_parse (by decide +kernel)
  have found : (analyze ⟨.auto, true⟩ loneReturns "a.js").toOption =
      some [⟨"f", "a.js", .ofNat 4, .ofNat 4, []⟩] := by decide +kernel
  cases analyzed : analyze ⟨.auto, true⟩ loneReturns "a.js" with
  | error failure =>
      rw [analyzed] at found
      cases found
  | ok methods =>
      rw [analyzed] at found
      cases found
      have runs := threeLines_runsBetween_loneReturns
      exact ⟨script, _, parsed, rfl, records, runs.mem_extract, runs, by decide,
        ⟨by decide, by decide⟩, by decide, List.not_mem_nil⟩

end Source

end SampleMethods
