import Finguard.Lib.Numeral
import Finguard.MpesaCallback

/-! What Python makes of JSON texts and of the values in them, and what it raises. -/

namespace Finguard
open Text

/-- A `valueError` stands for those of its subclasses that nothing tells apart. -/
inductive PyException where
  | jsonDecodeError
  | unicodeDecodeError
  | unicodeEncodeError
  | valueError
  | typeError
  | attributeError
  | overflowError
  | recursionError
  | cancelledError
  | other (className : String)
deriving DecidableEq

namespace PyException

/-- What `except ValueError` catches. -/
def isValueError : PyException → Bool
  | jsonDecodeError | unicodeDecodeError | unicodeEncodeError | valueError => true
  | _ => false

/-- What `except Exception` catches. -/
def isException : PyException → Bool
  | cancelledError => false
  | _ => true

end PyException

class PythonJson where
  loads : List UInt8 → Except PyException PyValue
  str : PyValue → Except PyException String
  str_text : ∀ s, str (.text s) = .ok s
  str_isException : ∀ {value exc}, str value = .error exc → exc.isException
  repr : PyValue → Except PyException String
  float : PyValue → Except PyException Number
  float_isException : ∀ {value exc}, float value = .error exc → exc.isException

/-- An attribute of a dictionary is looked up on the value. -/
def PyValue.asDict : PyValue → Except PyException PyFields
  | .object fields => .ok fields
  | _ => .error .attributeError

def dictGet (fields : PyFields) (name : String) (absent : PyValue) : PyValue :=
  (fields.lookup name).getD absent

/-- `int` of a value. -/
def intOfValue [DecimalDigits] : PyValue → Except PyException ℤ
  | .int n => .ok n
  | .bool b => .ok (if b then 1 else 0)
  | .float (.finite q) => .ok (if 0 ≤ q then ⌊q⌋ else ⌈q⌉)
  | .float (.infinite _) => .error .overflowError
  | .float .nan => .error .valueError
  | .text s => (intOf? s).elim (.error .valueError) .ok
  | _ => .error .typeError

/-- The bytes of an ASCII text. -/
def asciiBytes (s : String) : List UInt8 := s.toList.map fun c => UInt8.ofNat c.toNat

def encodeAscii (s : String) : Except PyException (List UInt8) :=
  if isAscii s then .ok (asciiBytes s) else .error .unicodeEncodeError

theorem PyValue.asDict_eq_ok {value : PyValue} {fields : PyFields} :
    value.asDict = .ok fields ↔ value = .object fields := by
  constructor
  · intro h
    cases value with
    | object => exact congrArg PyValue.object (Except.ok.inj h)
    | _ => cases h
  · rintro rfl
    rfl

/-- A reader that knows some texts, and reads every other one as malformed. -/
abbrev PythonJson.knowing (texts : List (String × PyValue)) : PythonJson where
  loads body :=
    match texts.find? (asciiBytes ·.1 = body) with
    | some text => .ok text.2
    | none => .error .jsonDecodeError
  str
    | .text s => .ok s
    | .int n => .ok (toString n)
    | _ => .ok "None"
  str_text _ := rfl
  str_isException h := by split at h <;> cases h
  repr
    | .text s => .ok ("'" ++ s ++ "'")
    | .int n => .ok (toString n)
    | _ => .ok "None"
  float
    | .float x => .ok x
    | .int n => .ok (.finite n)
    | .bool b => .ok (.finite (if b then 1 else 0))
    | .text _ => .error .valueError
    | _ => .error .typeError
  float_isException h := by split at h <;> cases h <;> rfl

end Finguard
