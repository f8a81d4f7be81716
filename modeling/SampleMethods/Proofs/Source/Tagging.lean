import SampleMethods.Proofs.Failure
import SampleMethods.Proofs.Method.Order
import SampleMethods.Proofs.Region.Attachment
import SampleMethods.Proofs.Region.Pairing
import SampleMethods.Proofs.Strategy.Statements
import SampleMethods.Source

/-!
# Analyses with and without tags

Whether an analysis attaches the tags of regions shows in the tags of its methods
and in nothing else (`methodsOf_tagged`): the same methods come in the same order,
because tags are no part of what methods are sorted by. The tags of a method are
those of the regions around it, and these are the paired markers of the text
(`analyze_tagged`).
-/

set_option autoImplicit false

namespace SampleMethods

namespace Method

/-- A method apart from its tags. -/
structure SameButTags (method other : Method) : Prop where
  name : method.name = other.name
  sourcePath : method.sourcePath = other.sourcePath
  startLine : method.startLine = other.startLine
  endLine : method.endLine = other.endLine

end Method

theorem Strategy.extract_untagged {strategy : Strategy} {text : List Char} {sourcePath : String}
    {script : Script.Module} :
    ∀ method ∈ strategy.extract text sourcePath script, method.regionTags = [] := by
  refine strategy.extract_induction
    (motive := fun methods => ∀ method ∈ methods, method.regionTags = []) text sourcePath script
    (fun _ member => nomatch member) ?_
  intro statements method member
  obtain ⟨candidate, _, rfl⟩ := List.mem_map.mp member
  rfl

namespace Source

theorem methodsOf_untagged (strategy : Strategy) (text : List Char) (path : String)
    (script : Script.Module) :
    methodsOf ⟨strategy, false⟩ text path script =
      Method.sortInFile (strategy.extract text path script) := rfl

/-- **Tags are attached to the methods that are found without them, where they stand.** -/
theorem methodsOf_tagged (strategy : Strategy) (text : List Char) (path : String)
    (script : Script.Module) :
    methodsOf ⟨strategy, true⟩ text path script =
      (methodsOf ⟨strategy, false⟩ text path script).map
        (Region.attachTo (Region.extract text)) := by
  have sameOrder : ∀ first second : Method, first.isAtMostInFile second =
      (Region.attachTo (Region.extract text) first).isAtMostInFile
        (Region.attachTo (Region.extract text) second) := fun _ _ => rfl
  rw [methodsOf_untagged, ← Method.sortInFile_map _ sameOrder, methodsOf]
  cases strategy.extract text path script with
  | nil => rfl
  | cons method methods => rfl

theorem regionTags_of_mem_methodsOf {strategy : Strategy} {text : List Char} {path : String}
    {script : Script.Module} {method : Method}
    (member : method ∈ methodsOf ⟨strategy, false⟩ text path script) : method.regionTags = [] := by
  rw [methodsOf_untagged, Method.sortInFile, List.mem_mergeSort] at member
  exact Strategy.extract_untagged method member

/-- The tags of a method are those of the regions around it. -/
theorem mem_regionTags_iff {strategy : Strategy} {text : List Char} {path : String}
    {script : Script.Module} {method : Method}
    (member : method ∈ methodsOf ⟨strategy, true⟩ text path script) {tag : String} :
    tag ∈ method.regionTags ↔
      ∃ region ∈ Region.extract text, region.encloses method = true ∧ region.tag = tag := by
  rw [methodsOf_tagged] at member
  obtain ⟨bare, isBare, rfl⟩ := List.mem_map.mp member
  rw [Region.mem_attachTo, regionTags_of_mem_methodsOf isBare]
  simp only [List.not_mem_nil, false_or]
  rfl

/-- A text that is read as a script with a property is that of such a script. -/
theorem exists_parse {text : List Char} {path : String} {property : Script.Module → Prop}
    [DecidablePred property]
    (isRead : ((parse text path).toOption.any fun script => property script) = true) :
    ∃ script, parse text path = .ok script ∧ property script :=
  exists_ok isRead

theorem analyze_of_parse {text : List Char} {path : String} {script : Script.Module}
    (parsed : parse text path = .ok script) (options : Options) :
    analyze options text path = .ok (methodsOf options text path script) := by
  rw [analyze, parsed]
  rfl

/-- **Attaching tags changes the tags of methods and nothing else.** Analyses of a text with and
without tags give methods that agree one by one in all other fields. Those without have no tags, and
the tags of the others stand in strict order and are those for which a start and a finish marker
that the extraction pairs lie at or above, and at or below, all lines of the method. -/
theorem analyze_tagged {text : List Char} {path : String} {script : Script.Module}
    (parsed : parse text path = .ok script) (strategy : Strategy) :
    ∃ tagged bare, analyze ⟨strategy, true⟩ text path = .ok tagged ∧
      analyze ⟨strategy, false⟩ text path = .ok bare ∧
      List.Forall₂ Method.SameButTags tagged bare ∧
      (∀ method ∈ bare, method.regionTags = []) ∧
      ∀ method ∈ tagged, method.regionTags.Pairwise (· < ·) ∧
        ∀ tag, tag ∈ method.regionTags ↔ ∃ first last,
          Region.IsPair (Region.marks tag text) first last ∧
          (⟨tag, .ofNat first, .ofNat last⟩ : Region) ∈ Region.extract text ∧
          (LineNumber.ofNat first).toNat ≤ method.startLine.toNat ∧
          method.endLine.toNat ≤ (LineNumber.ofNat last).toNat := by
  refine ⟨_, _, analyze_of_parse parsed ⟨strategy, true⟩, analyze_of_parse parsed ⟨strategy, false⟩,
    ?_, fun method => regionTags_of_mem_methodsOf, fun method member => ⟨?_, fun tag => ?_⟩⟩
  · rw [methodsOf_tagged, List.forall₂_map_left_iff, List.forall₂_same]
    exact fun method _ => ⟨rfl, rfl, rfl, rfl⟩
  · rw [methodsOf_tagged] at member
    obtain ⟨bare, _, rfl⟩ := List.mem_map.mp member
    exact Region.attachTo_sorted _ bare
  · rw [mem_regionTags_iff member]
    simp only [Region.encloses_iff]
    constructor
    · rintro ⟨⟨tag, startLine, endLine⟩, isRegion, encloses, rfl⟩
      obtain ⟨first, last, isPair, rfl, rfl⟩ := Region.mem_extract_iff.mp isRegion
      exact ⟨first, last, isPair, isRegion, encloses⟩
    · rintro ⟨first, last, _, isRegion, encloses⟩
      exact ⟨_, isRegion, encloses, rfl⟩

/-- A function in a region, which is called outside of it. -/
def taggedText : List Char :=
  "// [START a]\nfunction f() {}\n// [END a]\nf();\n".toList

theorem analyze_tagged_oneRegion :
    ∃ script tagged bare, parse taggedText "a.js" = .ok script ∧
      analyze ⟨.auto, true⟩ taggedText "a.js" = .ok tagged ∧
      analyze ⟨.auto, false⟩ taggedText "a.js" = .ok bare ∧
      List.Forall₂ Method.SameButTags tagged bare ∧
      tagged.map (·.regionTags) = [["a"]] := by
  obtain ⟨script, parsed, _⟩ : ∃ script, parse taggedText "a.js" = .ok script ∧ True :=
    exists_parse (by decide +kernel)
  obtain ⟨tagged, bare, analyzed, analyzedBare, same, _⟩ := analyze_tagged parsed .auto
  have tags : (analyze ⟨.auto, true⟩ taggedText "a.js").toOption.map (·.map (·.regionTags)) =
      some [["a"]] := by decide +kernel
  rw [analyzed] at tags
  exact ⟨script, tagged, bare, parsed, analyzed, analyzedBare, same, Option.some.inj tags⟩

end Source

end SampleMethods
