import Mathlib.Tactic

/-!
# JSON values

Values, and the readers of them that give nothing where a value is of a type they do not convert. A
missing member reads as null, and null as zero.
-/

namespace Json

inductive Value where
  | null
  | int (n : ℤ)
  /-- A double. An infinite one is a number that is out of all bounds. -/
  | real (x : ℚ)
  | bool (b : Bool)
  | string (s : String)
  | array (values : List Value)
  | object (members : List (String × Value))

namespace Value

/-- Only null and objects have members. -/
def get (key : String) : Value → Option Value
  | null => some null
  | object members => some ((members.lookup key).getD null)
  | _ => none

/-- A real without its fraction. -/
def truncate (x : ℚ) : ℤ := x.num.tdiv x.den

def asIntIn (lo hi : ℤ) : Value → Option ℤ
  | null => some 0
  | int n => if lo ≤ n ∧ n ≤ hi then some n else none
  | real x => if lo ≤ x ∧ x ≤ hi then some (truncate x) else none
  | bool b => some b.toInt
  | _ => none

def asInt : Value → Option ℤ := asIntIn (-2 ^ 31) (2 ^ 31 - 1)

/-- A real is compared with the double nearest to the greatest number, which is one more, and is
made an `Int` of 32 bits, of which the least stands for what does not fit. -/
def asInt64 : Value → Option ℤ
  | real x =>
    if -2 ^ 63 ≤ x ∧ x ≤ 2 ^ 63 then
      if -2 ^ 31 ≤ truncate x ∧ truncate x ≤ 2 ^ 31 - 1 then some (truncate x)
      else some (-2 ^ 31)
    else none
  | v => asIntIn (-2 ^ 63) (2 ^ 63 - 1) v

def asString : Value → Option String
  | null => some ""
  | string s => some s
  | bool b => some (toString b)
  | _ => none

/-- The text of a string, and of nothing else. -/
def asCString : Value → Option String
  | string s => some s
  | _ => none

def isNull : Value → Bool
  | null => true
  | _ => false

/-- Null is an array that is empty, and an object that is. -/
def isArray : Value → Bool
  | null | array _ => true
  | _ => false

def isObject : Value → Bool
  | null | object _ => true
  | _ => false

/-- Null where there is no such member, or there are no members. -/
def member (key : String) (v : Value) : Value := (v.get key).getD null

def HasMembers : Value → Prop
  | null | object _ => True
  | _ => False

/-- A value that may stand for a whole number between the bounds. -/
def IsIntIn (lo hi : ℤ) : Value → Prop
  | null | bool _ => True
  | int n => lo ≤ n ∧ n ≤ hi
  | real x => lo ≤ x ∧ x ≤ hi
  | _ => False

def IsInt : Value → Prop := IsIntIn (-2 ^ 31) (2 ^ 31 - 1)

def IsInt64 : Value → Prop
  | real x => -2 ^ 63 ≤ x ∧ x ≤ 2 ^ 63
  | v => IsIntIn (-2 ^ 63) (2 ^ 63 - 1) v

/-- A value that may stand for a text. -/
def IsText : Value → Prop
  | null | bool _ | string _ => True
  | _ => False

/-- What appending the values to null makes of it. -/
def ofList : List Value → Value
  | [] => null
  | values => array values

/-- The values of an array. -/
def elements : Value → List Value
  | array values => values
  | _ => []

/-- The member of the key is the number. -/
def hasInt (key : String) (n : ℤ) (v : Value) : Bool :=
  match v.get key with
  | some (int k) => k = n
  | _ => false

@[simp] theorem elements_ofList : ∀ values : List Value, (ofList values).elements = values
  | [] => rfl
  | _ :: _ => rfl

@[simp] theorem get_object (key : String) (members : List (String × Value)) :
    (object members).get key = some ((members.lookup key).getD null) := rfl

theorem asIntIn_int {lo hi n : ℤ} (h : lo ≤ n ∧ n ≤ hi) : (int n).asIntIn lo hi = some n :=
  if_pos h

@[simp] theorem asInt_null : null.asInt = some 0 := rfl

@[simp] theorem asString_string (s : String) : (string s).asString = some s := rfl

@[simp] theorem asCString_string (s : String) : (string s).asCString = some s := rfl

theorem get_eq_some {v : Value} (h : v.HasMembers) (key : String) :
    v.get key = some (v.member key) := by
  cases v <;> first | rfl | exact h.elim

theorem get_isSome_iff {v : Value} {key : String} : (v.get key).isSome ↔ v.HasMembers := by
  cases v <;> simp [get, HasMembers]

theorem asIntIn_isSome_iff {lo hi : ℤ} {v : Value} :
    (v.asIntIn lo hi).isSome ↔ v.IsIntIn lo hi := by
  cases v with
  | int n => simp only [asIntIn, IsIntIn, Option.isSome_ite]
  | real x => simp only [asIntIn, IsIntIn, Option.isSome_ite]
  | _ => simp [asIntIn, IsIntIn]

theorem asInt_isSome_iff {v : Value} : v.asInt.isSome ↔ v.IsInt := asIntIn_isSome_iff

theorem asInt64_isSome_iff {v : Value} : v.asInt64.isSome ↔ v.IsInt64 := by
  cases v with
  | real x =>
    simp only [asInt64, IsInt64]
    split_ifs with h h' <;> simp [h]
  | _ => simp only [asInt64, IsInt64, asIntIn_isSome_iff]

theorem asString_isSome_iff {v : Value} : v.asString.isSome ↔ v.IsText := by
  cases v <;> simp [asString, IsText]

theorem asCString_eq_some_iff {v : Value} {text : String} :
    v.asCString = some text ↔ v = string text := by
  cases v <;> simp [asCString]

end Value

end Json
