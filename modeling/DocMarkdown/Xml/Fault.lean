import DocMarkdown.Xml.Scan

/-! Why a document is refused, and where. -/

namespace DocMarkdown.Xml

inductive Reason
  | syntaxError
  | noElement
  | invalidToken
  | unclosedToken
  | partialCharacter
  | mismatchedTag
  | duplicateAttribute
  | junkAfterRoot
  | illegalParameterReference
  | undefinedEntity
  | recursiveEntity
  | asynchronousEntity
  | badCharacterNumber
  | binaryEntity
  | externalEntityInAttribute
  | misplacedDeclaration
  | unknownEncoding
  | incorrectEncoding
  | unclosedRaw
  | badDeclaration
  | badPublicId
  | notUnicode
  | amplified
  deriving DecidableEq

def Reason.message : Reason → String
  | syntaxError => "syntax error"
  | noElement => "no element found"
  | invalidToken => "not well-formed (invalid token)"
  | unclosedToken => "unclosed token"
  | partialCharacter => "partial character"
  | mismatchedTag => "mismatched tag"
  | duplicateAttribute => "duplicate attribute"
  | junkAfterRoot => "junk after document element"
  | illegalParameterReference => "illegal parameter entity reference"
  | undefinedEntity => "undefined entity"
  | recursiveEntity => "recursive entity reference"
  | asynchronousEntity => "asynchronous entity"
  | badCharacterNumber => "reference to invalid character number"
  | binaryEntity => "reference to binary entity"
  | externalEntityInAttribute => "reference to external entity in attribute"
  | misplacedDeclaration => "XML or text declaration not at start of entity"
  | unknownEncoding => "unknown encoding"
  | incorrectEncoding => "encoding specified in XML declaration is incorrect"
  | unclosedRaw => "unclosed CDATA section"
  | badDeclaration => "XML declaration not well-formed"
  | badPublicId => "illegal character(s) in public id"
  | notUnicode => "document is not valid UTF-8"
  | amplified => "limit on input amplification factor (from DTD and entities) breached"

structure Fault where
  reason : Reason
  offset : Nat
  deriving DecidableEq

def Halt.fault (start : Nat) : Halt → Fault
  | .invalid offset => ⟨.invalidToken, offset⟩
  | .unfinished => ⟨.unclosedToken, start⟩
  | .cutCharacter => ⟨.partialCharacter, start⟩

end DocMarkdown.Xml
