import Mathlib.Data.List.Induction
import Mathlib.Tactic.Common

/-!
# JSON values (`DataPacket` in `Pvd/pvd.h`, over `Pvd/cppjson/json_value.cpp`)

A `Value` is a JSON value as jsoncpp holds it. The doubles are of any type `R`; what `asInt` and `asString` make of one
is a parameter. The order of the members of an object has no meaning.
-/

namespace VideoDetector.Pvd
set_option autoImplicit false

/-- `Json::Value`. -/
inductive Value (R : Type) where
  | null
  | bool (b : Bool)
  | int (n : Int)
  | real (r : R)
  | string (s : String)
  | array (elements : List (Value R))
  | object (members : List (String × Value R))

/-- A failed `JSON_ASSERT_MESSAGE`, or an iterator that belongs to no vector. -/
inductive Fault where
  | notConvertible | requiresArray | requiresObject | singularIterator
  deriving DecidableEq, Repr

/-- The values of an `int`. -/
abbrev CInt := { n : Int // -2147483648 ≤ n ∧ n < 2147483648 }

/-- How a double is made an `int`, if it is in range, and a text. -/
structure Doubles (R : Type) where
  toInt : R → Option CInt
  toText : R → String

def CInt.zero : CInt := ⟨0, Int.neg_nonpos_of_nonneg (Int.natCast_nonneg 2147483648), Int.natCast_pos.mpr (Nat.succ_pos _)⟩

def CInt.one : CInt :=
  ⟨1, Int.le_trans CInt.zero.2.1 (Int.natCast_nonneg 1), Int.ofNat_lt.mpr (Nat.succ_lt_succ (Nat.succ_pos _))⟩

section
variable {R : Type} (doubles : Doubles R)

/-- `Value::asInt`. -/
def Value.asInt : Value R → Except Fault CInt
  | null => .ok CInt.zero
  | bool b => .ok (if b then CInt.one else CInt.zero)
  | int n => if inRange : -2147483648 ≤ n ∧ n < 2147483648 then .ok ⟨n, inRange⟩ else .error .notConvertible
  | real r =>
    match doubles.toInt r with
    | some n => .ok n
    | none => .error .notConvertible
  | _ => .error .notConvertible

/-- `Value::asString`. -/
def Value.asString : Value R → Except Fault String
  | null => .ok ""
  | bool b => .ok (if b then "true" else "false")
  | int n => .ok (toString n)
  | real r => .ok (doubles.toText r)
  | string s => .ok s
  | _ => .error .notConvertible

end

section
variable {R : Type}

/-- The member of a name; `null` if there is none. -/
def memberOf (members : List (String × Value R)) (name : String) : Value R := (members.lookup name).getD .null

/-- Replace the member of a name, or add it. -/
def setMember (name : String) (v : Value R) : List (String × Value R) → List (String × Value R)
  | [] => [(name, v)]
  | (other, u) :: members => if other = name then (name, v) :: members else (other, u) :: setMember name v members

/-- `get_value`: `Value::operator[]` with a name. -/
def Value.getValue (v : Value R) (name : String) : Except Fault (Value R) :=
  match v with
  | null => .ok .null
  | object members => .ok (memberOf members name)
  | _ => .error .requiresObject

/-- `array_packet`: the elements one by one; a value of another type has none, but an object has its members. -/
def Value.arrayPacket : Value R → Except Fault (List (Value R))
  | array elements => .ok elements
  | object [] => .ok []
  | object _ => .error .requiresArray
  | _ => .ok []

/-- `v[i]=e` behind the elements so far; `null` becomes an array. -/
def Value.assignNext (v e : Value R) : Value R :=
  match v with
  | array before => array (before ++ [e])
  | _ => array [e]

/-- The constructor of `DataPacket` from a vector. -/
def dataPacket (elements : List (Value R)) : Value R := elements.foldl Value.assignNext .null

/-- A vector with elements becomes the array of them, the empty one `null`. -/
theorem dataPacket_eq (elements : List (Value R)) : dataPacket elements = if elements = [] then .null else .array elements := by
  induction elements using List.reverseRecOn with
  | nil => rfl
  | append_singleton before e ih =>
    have some : before ++ [e] ≠ [] := by simp
    have last : dataPacket (before ++ [e]) = (dataPacket before).assignNext e := by simp [dataPacket]
    rw [last, ih, if_neg some]
    by_cases first : before = []
    · rw [if_pos first, first]
      rfl
    · rw [if_neg first]
      rfl

@[simp] theorem memberOf_setMember (members : List (String × Value R)) (name : String) (v : Value R) :
    memberOf (setMember name v members) name = v := by
  unfold memberOf
  induction members with
  | nil => simp [setMember]
  | cons m members ih =>
    obtain ⟨other, u⟩ := m
    by_cases same : other = name
    · simp [setMember, same]
    · have differ : (name == other) = false := beq_false_of_ne (Ne.symm same)
      simp [setMember, same, List.lookup_cons, differ, ih]

theorem memberOf_setMember_other {name other : String} (differ : other ≠ name) (members : List (String × Value R))
    (v : Value R) : memberOf (setMember name v members) other = memberOf members other := by
  unfold memberOf
  induction members with
  | nil => simp [setMember, List.lookup_cons, beq_false_of_ne differ]
  | cons m members ih =>
    obtain ⟨third, u⟩ := m
    by_cases same : third = name
    · simp [setMember, same, List.lookup_cons, beq_false_of_ne differ]
    · by_cases found : other = third
      · simp [setMember, same, found]
      · simpa [setMember, same, List.lookup_cons, beq_false_of_ne found] using ih

end

end VideoDetector.Pvd
