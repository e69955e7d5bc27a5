import ProtoPascal.Naming.Vocabulary
import ProtoPascal.Pascal.Code
import ProtoPascal.Schema.Basic

/-!
The identifiers that fields and oneofs declare in the class of their message. All of them are taken
in the scope of the class, in the order in which they stand here.
-/

namespace ProtoPascal.Message

open Naming
open Schema (Field Oneof)

/-- The names of the property that tells whether a field is present, and of its accessors. -/
structure PresenceNames where
  property : String
  getter : String
  setter : String
deriving DecidableEq, Repr

/-- The names that a field declares. Repeated fields have no presence. -/
structure FieldNames where
  backing : String
  property : String
  getter : String
  setter : String
  presence : Option PresenceNames
  numberConstant : String
  nameConstant : String
deriving DecidableEq, Repr

/-- Take the names of the presence of a field. -/
def PresenceNames.claim (core : String) : Claiming PresenceNames := do
  let property ← Naming.claim .presence [] core
  let getter ← Naming.claim .presenceGetter [] core
  let setter ← Naming.claim .presenceSetter [] core
  return { property, getter, setter }

/-- Take the names of a field. -/
def FieldNames.claim (field : Field) : Claiming FieldNames := do
  let backing ← Naming.claim .backingField [] field.name
  let property ← Naming.claim .property propertyColliding field.name
  let getter ← Naming.claim .getter getterColliding field.name
  let setter ← Naming.claim .setter setterColliding field.name
  let presence ←
    if field.repeated then pure none else some <$> PresenceNames.claim field.name
  let numberConstant ← Naming.claim .fieldNumber [] field.name
  let nameConstant ← Naming.claim .fieldName [] field.name
  return { backing, property, getter, setter, presence, numberConstant, nameConstant }

/-- The value of a case type that stands for a member. -/
structure CaseValue where
  /-- The number of the member field. -/
  number : Int
  name : String
deriving DecidableEq, Repr

/-- The names that a oneof declares. -/
structure OneofNames where
  /-- The name of the oneof in the schema. -/
  protoName : String
  synthetic : Bool
  caseType : String
  backing : String
  property : String
  getter : String
  setter : String
  /-- The value of the case type that stands for no member. -/
  noneValue : String
  /-- The values of the case type that stand for the members. -/
  caseValues : List CaseValue
deriving DecidableEq, Repr

/-- The name from which the identifiers of a oneof are made. That of a synthetic oneof is the name
of its field, marked as a presence. -/
def oneofCore (oneof : Oneof) : String :=
  if oneof.synthetic then Text.trimStart '_' oneof.name ++ "_presence" else oneof.name

/-- Take the value that stands for a member, in the scope of the case type. -/
def CaseValue.claim (oneof : Oneof) (member : Field) : Claiming CaseValue := do
  let name ← Naming.claim .caseValue [] (oneofCore oneof ++ "_case_" ++ member.name)
  return { number := member.number, name }

/-- The value for no member and the values for the members, all in the scope of the case type. -/
def claimCaseValues (oneof : Oneof) (members : List Field) :
    Claiming (String × List CaseValue) := do
  let noneValue ← Naming.claim .caseValue [] (oneofCore oneof ++ "_case_none")
  let caseValues ← members.mapM (CaseValue.claim oneof)
  return (noneValue, caseValues)

/-- Take the names of a oneof with the given members. The values of its case type have a scope of
their own. -/
def OneofNames.claim (oneof : Oneof) (members : List Field) : Claiming OneofNames := do
  let (noneValue, caseValues) ←
    Claiming.ofExcept ((claimCaseValues oneof members).resultIn keywordScope)
  let core := oneofCore oneof
  let caseType ← Naming.claim .caseType [] core
  let backing ← Naming.claim .backingField [] core
  let property ← Naming.claim .property propertyColliding core
  let getter ← Naming.claim .getter getterColliding core
  let setter ← Naming.claim .setter setterColliding core
  return { protoName := oneof.name, synthetic := oneof.synthetic, caseType, backing, property,
           getter, setter, noneValue, caseValues }

/-- The value that stands for the member with a number. -/
def OneofNames.caseValue? (names : OneofNames) (number : Int) : Option String :=
  (names.caseValues.find? fun value => value.number == number).map CaseValue.name

/-- A value of the case type as an expression. -/
def OneofNames.qualify (names : OneofNames) (value : String) : Pascal.Expr :=
  .enumValue names.caseType value

end ProtoPascal.Message
