import SampleMethods.Proofs.Invocation.Extraction
import SampleMethods.Proofs.Strategy.Statements
import SampleMethods.Source

/-!
# The methods of one file

All methods that the analysis of a file gives carry the path of that file, and no
two of them have the same name (`ofOneFile_of_analyze`). An extraction gives such
methods, whichever layout it is for, and neither tags nor a sort change that.
-/

set_option autoImplicit false

namespace SampleMethods

/-- The methods are those of one file, and each has a name of its own. -/
structure Method.OfOneFile (sourcePath : String) (methods : List Method) : Prop where
  sourcePath : ∀ method ∈ methods, method.sourcePath = sourcePath
  distinct : (methods.map (·.name)).Nodup

namespace Method.OfOneFile

theorem nil (sourcePath : String) : OfOneFile sourcePath [] :=
  ⟨fun _ member => absurd member List.not_mem_nil, List.nodup_nil⟩

theorem perm {sourcePath : String} {methods others : List Method}
    (ofOneFile : OfOneFile sourcePath methods) (perm : methods.Perm others) :
    OfOneFile sourcePath others where
  sourcePath method member := ofOneFile.sourcePath method (perm.mem_iff.mpr member)
  distinct := (perm.map (·.name)).nodup_iff.mp ofOneFile.distinct

/-- Methods that keep their paths and names still are those of the file. -/
theorem map {sourcePath : String} {methods : List Method} (change : Method → Method)
    (samePath : ∀ method, (change method).sourcePath = method.sourcePath)
    (sameName : ∀ method, (change method).name = method.name)
    (ofOneFile : OfOneFile sourcePath methods) : OfOneFile sourcePath (methods.map change) where
  sourcePath := by
    intro changed member
    obtain ⟨method, isMethod, rfl⟩ := List.mem_map.mp member
    rw [samePath]
    exact ofOneFile.sourcePath method isMethod
  distinct := by
    have sameNames : (·.name) ∘ change = (·.name) := funext sameName
    rw [List.map_map, sameNames]
    exact ofOneFile.distinct

end Method.OfOneFile

open Method (OfOneFile)

theorem Invocation.extract_ofOneFile (text : List Char) (sourcePath : String)
    (statements : List Script.Node) :
    OfOneFile sourcePath (Invocation.extract text sourcePath statements) where
  sourcePath := by
    intro method member
    obtain ⟨_, _, rfl⟩ := List.mem_map.mp member
    rfl
  distinct := extract_distinct text sourcePath statements

theorem Strategy.extract_ofOneFile (strategy : Strategy) (text : List Char)
    (sourcePath : String) (script : Script.Module) :
    OfOneFile sourcePath (strategy.extract text sourcePath script) :=
  strategy.extract_induction text sourcePath script (.nil sourcePath)
    (Invocation.extract_ofOneFile text sourcePath)

theorem Region.attach_ofOneFile {sourcePath : String} {methods : List Method}
    (regions : List Region) (ofOneFile : OfOneFile sourcePath methods) :
    OfOneFile sourcePath (Region.attach regions methods) :=
  ofOneFile.map (Region.attachTo regions) (fun _ => rfl) (fun _ => rfl)

namespace Source

theorem methodsOf_ofOneFile (options : Options) (text : List Char) (path : String)
    (script : Script.Module) : OfOneFile path (methodsOf options text path script) := by
  have extracted := options.strategy.extract_ofOneFile text path script
  refine .perm ?_ (List.mergeSort_perm _ _).symm
  split_ifs
  · exact Region.attach_ofOneFile _ extracted
  · exact extracted

/-- **The analysis of a file gives methods of that file, each with a name of its own.** -/
theorem ofOneFile_of_analyze {options : Options} {text : List Char} {path : String}
    {methods : List Method} (analyzed : analyze options text path = .ok methods) :
    OfOneFile path methods := by
  rw [analyze] at analyzed
  cases parsed : parse text path with
  | error failure =>
      rw [parsed] at analyzed
      cases analyzed
  | ok script =>
      rw [parsed] at analyzed
      cases analyzed
      exact methodsOf_ofOneFile options text path script

end Source

end SampleMethods
