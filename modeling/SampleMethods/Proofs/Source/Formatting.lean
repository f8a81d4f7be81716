import SampleMethods.Proofs.Invocation.Skeleton
import SampleMethods.Proofs.Source.Tagging

/-!
# Ways to format a source file

Texts that are the same script up to spans have the same methods by name, because an
extraction sees the skeleton of the script only (`Strategy.names_extract`). Their order
is another matter: methods are sorted by line and name, so those of one line come in the
order of their names and the others as they are declared. The order is that of the other
text exactly if lines and names compare alike there (`names_analyze_of_withoutSpans`),
and it changes where functions are put on one line (`names_analyze_oneLine`).
-/

set_option autoImplicit false

namespace SampleMethods

open Script

/-! ## The statements that are looked at -/

/-- The wrapper of a skeleton has the skeleton of the body. -/
theorem Wrapper.body_first?_skeleton (script : Module) :
    (first? script.skeleton).map (·.body) =
      (first? script).map fun wrapper => Node.skeletons wrapper.body := by
  have inStatement : ∀ statement : Node, (ofStatement? statement.skeleton).map (·.body) =
      (ofStatement? statement).map fun wrapper => Node.skeletons wrapper.body := by
    intro statement
    have sameBody := congrArg (Option.map Prod.snd) (Invocation.definedFunction?_skeleton statement)
    rw [Option.map_map, Option.map_map] at sameBody
    rw [ofStatement?, ofStatement?, Option.map_map, Option.map_map]
    exact sameBody
  rw [first?, Module.statements_skeleton, first?, Node.skeletons_eq_map]
  induction script.statements with
  | nil => rfl
  | cons statement statements ih =>
      have here := inStatement statement
      rw [List.map_cons, List.findSome?_cons, List.findSome?_cons]
      cases isSkeleton : ofStatement? statement.skeleton with
      | some wrapper =>
          cases isDefined : ofStatement? statement with
          | some other => simpa only [isSkeleton, isDefined] using here
          | none => simp [isSkeleton, isDefined] at here
      | none =>
          cases isDefined : ofStatement? statement with
          | some other => simp [isSkeleton, isDefined] at here
          | none => exact ih

theorem Layout.statements_skeleton (layout : Layout) (script : Module) :
    layout.statements script.skeleton = Node.skeletons (layout.statements script) := by
  cases layout with
  | direct => exact Module.statements_skeleton script
  | wrapped =>
      rw [statements, Wrapper.body_first?_skeleton, statements]
      cases Wrapper.first? script with
      | none => rfl
      | some wrapper => rfl

/-! ## The names of methods -/

section Names

variable {text other : List Char} {path otherPath : String} {script otherScript : Module}

theorem Layout.names_extract (layout : Layout) (same : script.skeleton = otherScript.skeleton) :
    (layout.extract text path script).map (·.name) =
      (layout.extract other otherPath otherScript).map (·.name) := by
  rw [extract_eq, extract_eq, ← Invocation.names_extract_skeletons text text path path,
    ← statements_skeleton, same, statements_skeleton,
    Invocation.names_extract_skeletons text other path otherPath]

theorem Strategy.names_extractFirst (same : script.skeleton = otherScript.skeleton)
    (layouts : List Layout) :
    (extractFirst text path script layouts).map (·.name) =
      (extractFirst other otherPath otherScript layouts).map (·.name) := by
  induction layouts with
  | nil => rfl
  | cons layout layouts ih =>
      have names : (layout.extract text path script).map (·.name) =
          (layout.extract other otherPath otherScript).map (·.name) := layout.names_extract same
      rw [extractFirst, extractFirst]
      cases isFound : layout.extract text path script with
      | nil =>
          rw [isFound, List.map_nil, eq_comm, List.map_eq_nil_iff] at names
          rw [names]
          exact ih
      | cons method methods =>
          rw [isFound] at names
          cases isOther : layout.extract other otherPath otherScript with
          | nil =>
              rw [isOther] at names
              cases names
          | cons otherMethod otherMethods =>
              rw [isOther] at names
              exact names

/-- **Scripts with the same skeleton have methods with the same names**, in the same order. -/
theorem Strategy.names_extract (strategy : Strategy)
    (same : script.skeleton = otherScript.skeleton) :
    (strategy.extract text path script).map (·.name) =
      (strategy.extract other otherPath otherScript).map (·.name) :=
  names_extractFirst same strategy.layouts

theorem Strategy.names_distinct (strategy : Strategy) :
    ((strategy.extract text path script).map (·.name)).Nodup :=
  strategy.extract_induction (motive := fun methods => (methods.map (·.name)).Nodup) text path
    script List.nodup_nil fun statements => Invocation.extract_distinct text path statements

end Names

/-! ## The order of methods -/

/-- Every method starts on a line below those that are declared before it. -/
def Strategy.StartsApart (strategy : Strategy) (text : List Char) (path : String)
    (script : Module) : Prop :=
  (strategy.extract text path script).Pairwise fun earlier later =>
    earlier.startLine.toNat < later.startLine.toNat

instance (strategy : Strategy) (text : List Char) (path : String) (script : Module) :
    Decidable (strategy.StartsApart text path script) :=
  inferInstanceAs (Decidable (List.Pairwise _ _))

namespace Source

section Order

variable {text other : List Char} {path otherPath : String} {script otherScript : Module}
  {strategy : Strategy}

/-- The methods of a file stand in the strict order of their lines and names. -/
theorem methodsOf_strictlySorted (strategy : Strategy) (text : List Char) (path : String)
    (script : Module) :
    (methodsOf ⟨strategy, false⟩ text path script).Pairwise
      (Method.keyInFile · < Method.keyInFile ·) := by
  have keysDistinct : ((strategy.extract text path script).map Method.keyInFile).Nodup := by
    refine List.Nodup.of_map (fun key => (ofLex key).2) ?_
    rw [List.map_map]
    exact strategy.names_distinct
  exact Method.isAtMostInFile_comparesBy.strictlySorted keysDistinct

/-- Methods that start on lines of their own stand as they are declared. -/
theorem methodsOf_of_startsApart (apart : strategy.StartsApart text path script) :
    methodsOf ⟨strategy, false⟩ text path script = strategy.extract text path script := by
  rw [methodsOf_untagged]
  refine List.mergeSort_of_pairwise (apart.imp fun {earlier later} above => ?_)
  rw [Method.isAtMostInFile_comparesBy, Method.keyInFile, Method.keyInFile,
    Prod.Lex.toLex_le_toLex]
  exact .inl above

theorem names_methodsOf_perm (same : script.skeleton = otherScript.skeleton) :
    ((methodsOf ⟨strategy, false⟩ text path script).map (·.name)).Perm
      ((methodsOf ⟨strategy, false⟩ other otherPath otherScript).map (·.name)) := by
  have sorted := (List.mergeSort_perm (strategy.extract text path script)
    Method.isAtMostInFile).map (·.name)
  have otherSorted := (List.mergeSort_perm (strategy.extract other otherPath otherScript)
    Method.isAtMostInFile).map (·.name)
  rw [strategy.names_extract same] at sorted
  exact sorted.trans otherSorted.symm

end Order

/-- **How a script is formatted does not matter to which methods are found, only to their order.**
Analyses of two texts that are the same script up to spans give methods with the same names. They
give them in the same order exactly if the lines and names of any two methods compare alike in both
texts, and so whenever in both every method starts on a line below those declared before it. -/
theorem names_analyze_of_withoutSpans {text other : List Char} {path : String}
    {script otherScript : Module} (parsed : parse text path = .ok script)
    (parsedOther : parse other path = .ok otherScript)
    (same : script.withoutSpans = otherScript.withoutSpans) (strategy : Strategy) :
    ∃ methods others, analyze ⟨strategy, false⟩ text path = .ok methods ∧
      analyze ⟨strategy, false⟩ other path = .ok others ∧
      (methods.map (·.name)).Perm (others.map (·.name)) ∧
      (methods.map (·.name) = others.map (·.name) ↔
        CompareAlike (·.name) Method.keyInFile methods others) ∧
      (strategy.StartsApart text path script → strategy.StartsApart other path otherScript →
        methods.map (·.name) = others.map (·.name)) := by
  have sameSkeleton := Module.skeleton_eq_of_withoutSpans same
  have perm : ((methodsOf ⟨strategy, false⟩ text path script).map (·.name)).Perm
      ((methodsOf ⟨strategy, false⟩ other path otherScript).map (·.name)) :=
    names_methodsOf_perm sameSkeleton
  refine ⟨_, _, analyze_of_parse parsed _, analyze_of_parse parsedOther _, perm, ?_, ?_⟩
  · have sorted := (List.mergeSort_perm (strategy.extract text path script)
      Method.isAtMostInFile).map (·.name)
    exact map_eq_map_iff_compareAlike (methodsOf_strictlySorted strategy text path script)
      (methodsOf_strictlySorted strategy other path otherScript) perm
      (sorted.nodup_iff.mpr strategy.names_distinct)
  · intro apart otherApart
    rw [methodsOf_of_startsApart apart, methodsOf_of_startsApart otherApart]
    exact strategy.names_extract sameSkeleton

/-- Two functions on lines of their own, the second one called first. -/
def apartText : List Char :=
  "function b() {}\nfunction a() {}\na();\nb();\n".toList

/-- The same with other blanks and line breaks. -/
def spreadText : List Char :=
  "\n  function b()\n  {  }\n\nfunction a() { }\n\na(); b();".toList

/-- The same with both functions on one line. -/
def oneLineText : List Char :=
  "function b() {} function a() {}\na();\nb();\n".toList

theorem names_analyze_of_withoutSpans_spread :
    ∃ script otherScript methods others, parse apartText "a.js" = .ok script ∧
      parse spreadText "a.js" = .ok otherScript ∧
      script.withoutSpans = otherScript.withoutSpans ∧
      Strategy.auto.StartsApart apartText "a.js" script ∧
      Strategy.auto.StartsApart spreadText "a.js" otherScript ∧
      analyze ⟨.auto, false⟩ apartText "a.js" = .ok methods ∧
      analyze ⟨.auto, false⟩ spreadText "a.js" = .ok others ∧
      methods.map (·.name) = ["b", "a"] ∧ others.map (·.name) = ["b", "a"] := by
  obtain ⟨script, parsed, apart, names, both⟩ : ∃ script, parse apartText "a.js" = .ok script ∧
      Strategy.auto.StartsApart apartText "a.js" script ∧
      (Strategy.auto.extract apartText "a.js" script).map (·.name) = ["b", "a"] ∧
      ((parse spreadText "a.js").toOption.any fun other =>
        Strategy.auto.StartsApart spreadText "a.js" other ∧
          script.withoutSpans = other.withoutSpans) = true :=
    exists_parse (by decide +kernel)
  obtain ⟨otherScript, parsedOther, otherApart, same⟩ := exists_parse both
  obtain ⟨methods, others, analyzed, analyzedOther, _, _, ofApart⟩ :=
    names_analyze_of_withoutSpans parsed parsedOther same .auto
  have asDeclared : methods.map (·.name) = ["b", "a"] := by
    rw [analyze_of_parse parsed, methodsOf_of_startsApart apart] at analyzed
    cases analyzed
    exact names
  exact ⟨script, otherScript, methods, others, parsed, parsedOther, same, apart, otherApart,
    analyzed, analyzedOther, asDeclared, (ofApart apart otherApart).symm.trans asDeclared⟩

/-- **On one line the same functions come in another order.** -/
theorem names_analyze_oneLine :
    ∃ script otherScript methods others, parse apartText "a.js" = .ok script ∧
      parse oneLineText "a.js" = .ok otherScript ∧
      script.withoutSpans = otherScript.withoutSpans ∧
      analyze ⟨.auto, false⟩ apartText "a.js" = .ok methods ∧
      analyze ⟨.auto, false⟩ oneLineText "a.js" = .ok others ∧
      methods.map (·.name) = ["b", "a"] ∧ others.map (·.name) = ["a", "b"] := by
  obtain ⟨script, parsed, apart, names, both⟩ : ∃ script, parse apartText "a.js" = .ok script ∧
      Strategy.auto.StartsApart apartText "a.js" script ∧
      (Strategy.auto.extract apartText "a.js" script).map (·.name) = ["b", "a"] ∧
      ((parse oneLineText "a.js").toOption.any fun other =>
        Strategy.auto.extract oneLineText "a.js" other =
          [⟨"b", "a.js", .ofNat 1, .ofNat 1, []⟩, ⟨"a", "a.js", .ofNat 1, .ofNat 1, []⟩] ∧
        script.withoutSpans = other.withoutSpans) = true :=
    exists_parse (by decide +kernel)
  obtain ⟨otherScript, parsedOther, onOneLine, same⟩ := exists_parse both
  refine ⟨script, otherScript, _, _, parsed, parsedOther, same, analyze_of_parse parsed _,
    analyze_of_parse parsedOther _, ?_, ?_⟩
  · rw [methodsOf_of_startsApart apart, names]
  · rw [methodsOf_untagged, onOneLine, Method.sortInFile_pair]
    rfl

end Source

end SampleMethods
