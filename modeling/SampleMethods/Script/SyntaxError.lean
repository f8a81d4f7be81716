/-!
# Syntax errors

The causes for which a script is refused, and the sentence that each one gives.
A rule of the language whose violation does not stop the reading of a script
has no cause here: such scripts are accepted.
-/

set_option autoImplicit false

namespace SampleMethods.Script

/-- Why a script is refused. -/
inductive SyntaxError where
  /-- A token stands where one of several others was wanted. -/
  | unexpected (got wanted : String)
  /-- One particular token was wanted. -/
  | expected (wanted got : String)
  | expectedExpression
  | expectedStatementEnd
  | expectedSemicolon
  | expectedIdentifier
  | expectedUnicodeEscape
  | expectedDigit (radix : Nat)
  | badEscape (wanted : String)
  | unexpectedCharacter (character : Char)
  | identifierAfterNumber
  | escapeInReservedWord (word : String)
  | missingExponent
  | legacyOctal
  | unterminatedTemplate
  | unterminatedRegExp
  | unterminatedMarkup
  | awaitAsIdentifier
  | awaitStar
  | awaitOutsideForOf
  | yieldInParameters
  | lineBreakInThrow
  | lineBreakBeforeArrow
  | arrowNotAllowed
  | emptyParentheses
  | spreadInParentheses
  | unaryBeforePower
  | notAnExpression
  | notAPattern
  | invalidAssignmentTarget
  | patternWithoutInitializer
  | optionalPattern
  | restWithoutIdentifier
  | invalidSuper
  | invalidImport
  | invalidSuperCall
  | nonNullNotAllowed (subject : String)
  | optionalChainAfterNew
  | importOutsideModule
  | reservedImport
  | stringImport
  | multipleDefaults
  | constructorProperty
  | readonlyMethod
  | readonlyAccessor
  | setterParameter
  | parameterProperty
  | closingTag (name : String)
  | closingFragment
  | emptyMarkupAttribute
  | invalidMarkupValue
  /-- Constructs are nested more deeply than the length of the text allows. -/
  | nestedTooDeeply
deriving DecidableEq, Repr

namespace SyntaxError

/-- The sentence that states the cause. -/
def message : SyntaxError → String
  | unexpected got wanted => "Unexpected token `" ++ got ++ "`. Expected " ++ wanted
  | expected wanted got => "Expected '" ++ wanted ++ "', got '" ++ got ++ "'"
  | expectedExpression => "Expression expected"
  | expectedStatementEnd => "Expected ';', '\x7d' or <eof>"
  | expectedSemicolon => "Expected a semicolon"
  | expectedIdentifier => "Expected ident"
  | expectedUnicodeEscape => "Expected unicode escape"
  | expectedDigit radix =>
    "Expected " ++ (if radix == 2 then "a binary" else if radix == 8 then "an octal"
      else if radix == 10 then "a decimal" else "a hexadecimal") ++ " digit"
  | badEscape wanted => "Expected " ++ wanted
  | unexpectedCharacter character => "Unexpected character '" ++ character.toString ++ "'"
  | identifierAfterNumber => "Identifier cannot follow number"
  | escapeInReservedWord word => "Unexpected escape sequence in reserved word: " ++ word
  | missingExponent => "Expected +, - or decimal digit after e"
  | legacyOctal => "Legacy octal escape is not permitted in strict mode"
  | unterminatedTemplate => "Unterminated template"
  | unterminatedRegExp => "Unterminated regexp literal"
  | unterminatedMarkup => "Unterminated JSX contents"
  | awaitAsIdentifier => "`await` cannot be used as an identifier in an async context"
  | awaitStar =>
    "`await*` has been removed from the async functions proposal. Use Promise.all() instead."
  | awaitOutsideForOf => "for await syntax is valid only for for-of statement"
  | yieldInParameters => "`yield` cannot be used in generator parameters"
  | lineBreakInThrow => "LineBreak cannot follow 'throw'"
  | lineBreakBeforeArrow => "Unexpected line break between arrow head and arrow"
  | arrowNotAllowed => "An arrow function is not allowed here"
  | emptyParentheses => "Parenthesized expression cannot be empty"
  | spreadInParentheses => "Parenthesized expression cannot contain spread operator"
  | unaryBeforePower => "** cannot be applied to unary expression"
  | notAnExpression => "Not an expression"
  | notAPattern => "Not a pattern"
  | invalidAssignmentTarget =>
    "The left-hand side of an assignment expression must be a variable or a property access."
  | patternWithoutInitializer => "Destructuring bindings require initializers"
  | optionalPattern =>
    "A binding pattern parameter cannot be optional in an implementation signature."
  | restWithoutIdentifier =>
    "`...` must be followed by an identifier in declaration contexts"
  | invalidSuper => "Invalid access to super"
  | invalidImport => "Invalid access to import"
  | invalidSuperCall => "Invalid call to super"
  | nonNullNotAllowed subject => "Typescript non-null assertion operator is not allowed with '" ++
      subject ++ "'"
  | optionalChainAfterNew => "Constructor in/after an optional chaining is not allowed."
  | importOutsideModule => "'import', and 'export' cannot be used outside of module code"
  | reservedImport => "cannot import as reserved word"
  | stringImport => "A string literal cannot be used as an imported binding"
  | multipleDefaults => "A switch block cannot have multiple defaults"
  | constructorProperty => "Classes may not have a non-static field named 'constructor'"
  | readonlyMethod => "A method cannot be readonly"
  | readonlyAccessor => "A getter or a setter cannot be readonly"
  | setterParameter => "A `set` accessor must have exactly one parameter"
  | parameterProperty => "Typescript parameter property must be an identifier or assignment pattern"
  | closingTag name => "Expected corresponding JSX closing tag for <" ++ name ++ ">"
  | closingFragment => "Expected corresponding closing tag for JSX fragment"
  | emptyMarkupAttribute =>
    "JSX attributes must only be assigned a non-empty expression"
  | invalidMarkupValue => "JSX value should be either an expression or a quoted JSX text"
  | nestedTooDeeply => "Maximum nesting depth exceeded"

end SyntaxError

end SampleMethods.Script
