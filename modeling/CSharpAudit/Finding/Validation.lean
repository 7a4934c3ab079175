import CSharpAudit.Finding
import CSharpAudit.Text.Blank

/-!
Findings from loose records. A record is checked field by field; either it is a finding, or the
issues of all its fields are listed in the order of the fields.
-/

namespace CSharpAudit

/-- A value of a loose record. A decimal is `mantissa · 10 ^ -places`. -/
inductive Loose
  | null
  | truth (value : Bool)
  | text (value : String)
  | decimal (mantissa : Int) (places : Nat)
  | list
  | record (fields : List (String × Loose))

namespace Loose

inductive Fault
  | absent
  | notText
  | notInteger
  | unreadableInteger
  | fraction
  | belowOne
  | notRecord
deriving DecidableEq, Repr

def Fault.code : Fault → String
  | .absent => "missing"
  | .notText => "string_type"
  | .notInteger => "int_type"
  | .unreadableInteger => "int_parsing"
  | .fraction => "int_from_float"
  | .belowOne => "greater_than_equal"
  | .notRecord => "model_type"

def Fault.message : Fault → String
  | .absent => "Field required"
  | .notText => "Input should be a valid string"
  | .notInteger => "Input should be a valid integer"
  | .unreadableInteger => "Input should be a valid integer, unable to parse string as an integer"
  | .fraction => "Input should be a valid integer, got a number with a fractional part"
  | .belowOne => "Input should be greater than or equal to 1"
  | .notRecord => "Input should be a valid dictionary or instance of Location"

structure Issue where
  path : List String
  fault : Fault
deriving DecidableEq, Repr

def field? (fields : List (String × Loose)) (name : String) : Option Loose :=
  (fields.find? (fun f => f.1 == name)).map Prod.snd

def asText : Loose → Except Fault String
  | .text value => .ok value
  | _ => .error .notText

/-- Digits, where single underscores may stand between them. -/
def readDigits? (text : List Char) : Option Nat :=
  let groups := text.splitOn '_'
  if groups.all (fun g => !g.isEmpty && g.all Char.isDigit) then
    some (groups.flatten.foldl (fun value c => value * 10 + (c.toNat - '0'.toNat)) 0)
  else none

/-- Digits, perhaps with a point and zeros behind them. -/
def readWhole? (text : List Char) : Option Nat :=
  if ((text.dropWhile (· != '.')).drop 1).all (· == '0') then
    readDigits? (text.takeWhile (· != '.'))
  else none

/-- An integer as people write it: a sign, digits, blanks around them. -/
def readInteger? (text : String) : Option Int :=
  match (Text.trim text).toList with
  | '-' :: digits => (readWhole? digits).map (fun n => -(n : Int))
  | '+' :: digits => (readWhole? digits).map Int.ofNat
  | digits => (readWhole? digits).map Int.ofNat

def asInteger : Loose → Except Fault Int
  | .truth value => .ok (if value then 1 else 0)
  | .decimal mantissa places =>
    if mantissa % (Nat.pow 10 places : Nat) = 0 then .ok (mantissa / (Nat.pow 10 places : Nat))
    else .error .fraction
  | .text value =>
    match readInteger? value with
    | some n => .ok n
    | none => .error .unreadableInteger
  | _ => .error .notInteger

def asPlace (value : Loose) : Except Fault Int := do
  let n ← value.asInteger
  if n < 1 then throw .belowOne else return n

def required {α : Type} (fields : List (String × Loose)) (path : List String) (name : String)
    (read : Loose → Except Fault α) : Except (List Issue) α :=
  match field? fields name with
  | none => .error [⟨path ++ [name], .absent⟩]
  | some value => (read value).mapError (fun fault => [⟨path ++ [name], fault⟩])

/-- Two checks, whose issues add up. -/
def both {α β γ : Type} (f : α → β → γ) :
    Except (List Issue) α → Except (List Issue) β → Except (List Issue) γ
  | .ok a, .ok b => .ok (f a b)
  | .ok _, .error e => .error e
  | .error e, .ok _ => .error e
  | .error e, .error e' => .error (e ++ e')

structure Place where
  line : Int
  column : Int
  snippet : String

def asLocation (fields : List (String × Loose)) : Except (List Issue) Place :=
  let path := ["location"]
  both (fun (place : Int × Int) snippet => ⟨place.1, place.2, snippet⟩)
    (both Prod.mk (required fields path "line" asPlace) (required fields path "column" asPlace))
    (required fields path "snippet" asText)

def location (fields : List (String × Loose)) : Except (List Issue) Place :=
  match field? fields "location" with
  | none => .error [⟨["location"], .absent⟩]
  | some (.record inner) => asLocation inner
  | some _ => .error [⟨["location"], .notRecord⟩]

end Loose

def Finding.ofRecord (fields : List (String × Loose)) : Except (List Loose.Issue) Finding :=
  Loose.both
    (fun (names : String × String) place =>
      { ruleId := names.1, label := names.2, line := place.line, column := place.column,
        snippet := place.snippet })
    (Loose.both Prod.mk (Loose.required fields [] "rule_id" Loose.asText)
      (Loose.required fields [] "label" Loose.asText))
    (Loose.location fields)

/-- The findings of a list of records, or the issues of the first record that is none. -/
def Report.ofRecords (records : List (List (String × Loose))) :
    Except (List Loose.Issue) Report :=
  (records.mapM Finding.ofRecord).map Report.mk

end CSharpAudit
