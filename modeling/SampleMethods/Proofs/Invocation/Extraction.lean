import SampleMethods.Proofs.Invocation.Call
import SampleMethods.Proofs.Invocation.Declaration

/-!
# What an extraction gives

The methods of a list of statements are the functions that it both declares and
invokes, one for each name, recorded at the first declaration of the name and in
the order of these declarations (`extract_declared_and_invoked`).
-/

set_option autoImplicit false

namespace SampleMethods

open Script

namespace Invocation

/-- The first declaration of each name, with its position. -/
def firstLocated (statements : List Node) : List (Position × Candidate) :=
  keepFirst (·.2.name) (located statements)

theorem mem_firstLocated {statements : List Node} {position : Position} {candidate : Candidate} :
    (position, candidate) ∈ firstLocated statements ↔
      FirstDeclares statements position candidate.name candidate.span := by
  refine (mem_keepFirst (fun item : Position × Candidate => item.2.name) (·.1)
    (located_sorted statements)).trans ?_
  rw [mem_located]
  constructor
  · rintro ⟨declares, least⟩
    exact ⟨declares, fun other otherSpan again =>
      least (other, ⟨candidate.name, otherSpan⟩) (mem_located.mpr again) rfl⟩
  · rintro ⟨declares, least⟩
    refine ⟨declares, fun (other, otherCandidate) member same => ?_⟩
    have again := mem_located.mp member
    rw [same] at again
    exact least other otherCandidate.span again

/-- An extraction keeps the first declarations of the names that are invoked. -/
theorem extract_eq_firstLocated (text : List Char) (sourcePath : String)
    (statements : List Node) :
    extract text sourcePath statements =
      ((firstLocated statements).filter fun (_, candidate) =>
        (calledNamesIn statements).contains candidate.name).map fun (_, candidate) =>
          Method.ofSpan text sourcePath candidate.name candidate.span := by
  simp only [extract, ← map_snd_located, firstOfEachName_map, List.filter_map, List.map_map]
  rfl

/-- No name is recorded twice. -/
theorem extract_distinct (text : List Char) (sourcePath : String) (statements : List Node) :
    ((extract text sourcePath statements).map (·.name)).Nodup := by
  rw [extract_eq_firstLocated, List.map_map]
  exact (keepFirst_distinct _ (located statements)).sublist (List.filter_sublist.map _)

/-- A record is that of the first declaration of its name. -/
theorem exists_firstDeclares_of_mem_extract {text : List Char} {sourcePath : String}
    {statements : List Node} {method : Method}
    (member : method ∈ extract text sourcePath statements) :
    ∃ position span, FirstDeclares statements position method.name span ∧
      method = Method.ofSpan text sourcePath method.name span := by
  rw [extract_eq_firstLocated] at member
  obtain ⟨⟨position, candidate⟩, kept, rfl⟩ := List.mem_map.mp member
  exact ⟨position, candidate.span, mem_firstLocated.mp (List.mem_filter.mp kept).1, rfl⟩

/-- A name is recorded when the statements both declare and invoke it. -/
theorem exists_mem_extract_iff (text : List Char) (sourcePath : String) (statements : List Node)
    (name : String) :
    (∃ method ∈ extract text sourcePath statements, method.name = name) ↔
      (∃ position span, DeclaresAt statements position name span) ∧ Invokes statements name := by
  rw [extract_eq_firstLocated]
  constructor
  · rintro ⟨method, member, rfl⟩
    obtain ⟨⟨position, candidate⟩, kept, rfl⟩ := List.mem_map.mp member
    obtain ⟨isFirst, isCalled⟩ := List.mem_filter.mp kept
    have first := mem_firstLocated.mp isFirst
    exact ⟨⟨position, candidate.span, first.1⟩,
      invokes_iff.mpr (List.contains_iff_mem.mp isCalled)⟩
  · rintro ⟨⟨_, _, declares⟩, invokes⟩
    obtain ⟨position, span, first⟩ := exists_firstDeclares declares
    refine ⟨Method.ofSpan text sourcePath name span, List.mem_map.mpr
      ⟨(position, ⟨name, span⟩), List.mem_filter.mpr ⟨mem_firstLocated.mpr first, ?_⟩, rfl⟩, rfl⟩
    exact List.contains_iff_mem.mpr (invokes_iff.mp invokes)

/-- **An extraction gives the functions that the statements both declare and invoke.** There is
exactly one record for each name, it is that of the first declaration of the name, and the
records stand in the order of these declarations. -/
theorem extract_declared_and_invoked (text : List Char) (sourcePath : String)
    (statements : List Node) :
    (∀ name, (∃ method ∈ extract text sourcePath statements, method.name = name) ↔
      (∃ position span, DeclaresAt statements position name span) ∧ Invokes statements name) ∧
    ((extract text sourcePath statements).map (·.name)).Nodup ∧
    (∀ method ∈ extract text sourcePath statements,
      ∃ position span, FirstDeclares statements position method.name span ∧
        method = ⟨method.name, sourcePath, (Method.linesOf text span).1,
          (Method.linesOf text span).2, []⟩) ∧
    (extract text sourcePath statements).Pairwise fun earlier later =>
      ∀ position span other otherSpan,
        FirstDeclares statements position earlier.name span →
        FirstDeclares statements other later.name otherSpan → position < other := by
  have distinct := extract_distinct text sourcePath statements
  have recorded := exists_mem_extract_iff text sourcePath statements
  rw [extract_eq_firstLocated] at distinct recorded ⊢
  refine ⟨recorded, distinct, ?_, ?_⟩
  · intro method member
    obtain ⟨⟨position, candidate⟩, kept, rfl⟩ := List.mem_map.mp member
    exact ⟨position, candidate.span, mem_firstLocated.mp (List.mem_filter.mp kept).1, rfl⟩
  · have sorted := (located_sorted statements).sublist (keepFirst_sublist (·.2.name) _)
    rw [List.pairwise_map, List.pairwise_filter]
    refine sorted.imp_of_mem ?_
    rintro ⟨first, firstCandidate⟩ ⟨second, secondCandidate⟩ isFirst isSecond before _ _
      position span other otherSpan atPosition atOther
    have samePosition := (mem_firstLocated.mp isFirst).position_unique atPosition
    have sameOther := (mem_firstLocated.mp isSecond).position_unique atOther
    rw [← samePosition, ← sameOther]
    exact before

end Invocation

end SampleMethods
