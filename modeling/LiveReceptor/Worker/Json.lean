import LiveReceptor.Library.Handler
import LiveReceptor.Shared.SimpleWorkerProto

namespace LiveReceptor.Worker

-- A parsed document. A number without fraction that does not fit 64 bits is a
-- double: no integer test holds of it.
inductive Json
  | null
  | bool (value : Bool)
  | integer (value : Int)
  | double (bits : UInt64)
  | string (value : Bytes)
  | array (elements : List Json)
  | object (members : List (Bytes × Json))

def ascii (text : String) : Bytes := text.toList.map fun c => .ofNat c.toNat

-- A std::string_view made of a const char * ends at the first NUL.
def cString (text : Bytes) : Bytes := text.takeWhile (· ≠ 0)

namespace Json

open Handler

variable {σ α β : Type}

def isBool : Json → Bool
  | bool _ => true
  | _ => false

def isInt : Json → Bool
  | integer value => -2147483648 ≤ value && value < 2147483648
  | _ => false

def isUint : Json → Bool
  | integer value => 0 ≤ value && value < 4294967296
  | _ => false

def isInt64 : Json → Bool
  | integer value => -9223372036854775808 ≤ value && value < 9223372036854775808
  | _ => false

def isUint64 : Json → Bool
  | integer value => 0 ≤ value && value < 18446744073709551616
  | _ => false

def isNumber : Json → Bool
  | integer _ | double _ => true
  | _ => false

def isString : Json → Bool
  | string _ => true
  | _ => false

def isArray : Json → Bool
  | array _ => true
  | _ => false

def isObject : Json → Bool
  | object _ => true
  | _ => false

-- value.IsArray() && value.Size() >= size
def isArrayOf (size : Nat) : Json → Bool
  | array elements => size ≤ elements.length
  | _ => false

def elements : Json → List Json
  | array elements => elements
  | _ => []

def members : Json → List (Bytes × Json)
  | object members => members
  | _ => []

-- FindMember: of two members of one name, the first.
def member (value : Json) (name : String) : Option Json := value.members.lookup (ascii name)

def element (value : Json) (index : Nat) : Option Json := value.elements[index]?

def integerValue : Json → Int
  | integer value => value
  | _ => 0

def boolValue : Json → Bool
  | bool value => value
  | _ => false

def stringValue : Json → Bytes
  | string value => value
  | _ => []

-- A member or an element that is not there reads as null here: no test holds of
-- it.
def field (value : Json) (name : String) : Json := (value.member name).getD null

def place (value : Json) (position : Nat) : Json := (value.element position).getD null

@[simp] theorem test_null : null.isBool = false ∧ null.isInt = false ∧ null.isUint = false ∧
    null.isInt64 = false ∧ null.isUint64 = false ∧ null.isNumber = false ∧ null.isString = false ∧
    null.isArray = false ∧ null.isObject = false ∧ ∀ size, null.isArrayOf size = false := by
  simp only [isBool, isInt, isUint, isInt64, isUint64, isNumber, isString, isArray, isObject, isArrayOf,
    implies_true, and_self]

theorem isUint64_of_isUint {value : Json} (h : value.isUint = true) : value.isUint64 = true := by
  cases value with
  | integer n =>
      simp only [isUint, Bool.and_eq_true, decide_eq_true_eq] at h
      simp only [isUint64, Bool.and_eq_true, decide_eq_true_eq]
      omega
  | _ => cases h

theorem lt_length_of_isArrayOf {value : Json} (size : Nat) (h : value.isArrayOf size = true) :
    ∀ position < size, position < value.elements.length := by
  intro position hposition
  cases value with
  | array elements => exact Nat.lt_of_lt_of_le hposition (of_decide_eq_true h)
  | _ => cases h

-- The getters are defined on the values that pass the test of their type.
def getTyped (test : Json → Bool) (get : Json → α) (value : Json) : Handler σ α :=
  read (if test value then some (get value) else none)

abbrev getInt : Json → Handler σ Int := getTyped isInt integerValue

abbrev getUint : Json → Handler σ Int := getTyped isUint integerValue

abbrev getInt64 : Json → Handler σ Int := getTyped isInt64 integerValue

abbrev getUint64 : Json → Handler σ Int := getTyped isUint64 integerValue

abbrev getBool : Json → Handler σ Bool := getTyped isBool boolValue

abbrev getString : Json → Handler σ Bytes := getTyped isString stringValue

abbrev getArray : Json → Handler σ (List Json) := getTyped isArray elements

-- value[position]
def index (value : Json) (position : Nat) : Handler σ Json := read (value.element position)

def findMember (value : Json) (name : String) : Handler σ (Option Json) :=
  getTyped isObject (·.member name) value

def getMemberCheck (src : Json) (name : String) (test : Json → Bool) : Handler σ Json := do
  let found ← src.findMember name
  check found.isSome
  let value ← read found
  check (test value)
  return value

section Rules

variable {test : Json → Bool} {get : Json → α} {value src : Json} {next : α → Handler σ β}
  {more : Json → Handler σ β} {optional : Option Json → Handler σ β} {position : Nat} {name : String}
  {result : β}

@[simp] theorem noFault_getTyped_bind : (getTyped test get value >>= next).NoFault ↔
    test value = true ∧ (next (get value)).NoFault := by
  cases h : test value <;> simp [noFault_bind, getTyped, h]

@[simp] theorem returns_getTyped_bind : (getTyped test get value >>= next).Returns result ↔
    test value = true ∧ (next (get value)).Returns result := by
  cases h : test value <;> simp [returns_bind, getTyped, h]

@[simp] theorem noFault_findMember_bind : (src.findMember name >>= optional).NoFault ↔
    src.isObject = true ∧ (optional (src.member name)).NoFault := noFault_getTyped_bind

theorem element_eq_some_iff {found : Json} : value.element position = some found ↔
    position < value.elements.length ∧ value.place position = found := by
  unfold place element
  cases h : value.elements[position]? with
  | some element =>
      have hlt := (List.getElem?_eq_some_iff.mp h).1
      simp [hlt]
  | none =>
      have hle := List.getElem?_eq_none_iff.mp h
      simp [Nat.not_lt.mpr hle]

@[simp] theorem noFault_index_bind : (value.index position >>= more).NoFault ↔
    position < value.elements.length ∧ (more (value.place position)).NoFault := by
  rw [index, noFault_read_bind]
  simp only [element_eq_some_iff, and_assoc, exists_and_left, exists_eq_left']

@[simp] theorem returns_index_bind : (value.index position >>= more).Returns result ↔
    position < value.elements.length ∧ (more (value.place position)).Returns result := by
  rw [index, returns_read_bind]
  simp only [element_eq_some_iff, and_assoc, exists_and_left, exists_eq_left']

@[simp] theorem noFault_read_member_bind : (read (src.member name) >>= more).NoFault ↔
    (src.member name).isSome = true ∧ (more (src.field name)).NoFault := by
  rw [noFault_read_bind]
  cases h : src.member name <;> simp [field, h]

theorem noFault_getMemberCheck_bind : (src.getMemberCheck name test >>= more).NoFault ↔
    src.isObject = true ∧ ((src.member name).isSome = true → test (src.field name) = true →
      (more (src.field name)).NoFault) := by
  cases h : src.isObject <;> cases hmember : src.member name <;>
    simp [noFault_bind, returns_bind, getMemberCheck, findMember, getTyped, field, h, hmember]

theorem returns_getMemberCheck_bind : (src.getMemberCheck name test >>= more).Returns result ↔
    src.isObject = true ∧ (src.member name).isSome = true ∧ test (src.field name) = true ∧
      (more (src.field name)).Returns result := by
  cases h : src.isObject <;> cases hmember : src.member name <;>
    simp [returns_bind, getMemberCheck, findMember, getTyped, field, h, hmember]

-- What passes a test that null does not pass is there.
theorem isSome_member_of_test (htest : test null = false) (h : test (src.field name) = true) :
    (src.member name).isSome = true := by
  cases hmember : src.member name with
  | some found => rfl
  | none =>
      rw [field, hmember, Option.getD_none, htest] at h
      cases h

@[simp] theorem noFault_getMemberCheck_bind_of_null (htest : test null = false) :
    (src.getMemberCheck name test >>= more).NoFault ↔ src.isObject = true ∧
      (test (src.field name) = true → (more (src.field name)).NoFault) := by
  rw [noFault_getMemberCheck_bind]
  exact and_congr_right fun _ =>
    ⟨fun h hpasses => h (isSome_member_of_test htest hpasses) hpasses, fun h _ => h⟩

@[simp] theorem returns_getMemberCheck_bind_of_null (htest : test null = false) :
    (src.getMemberCheck name test >>= more).Returns result ↔ src.isObject = true ∧
      test (src.field name) = true ∧ (more (src.field name)).Returns result := by
  rw [returns_getMemberCheck_bind]
  exact and_congr_right fun _ =>
    ⟨fun h => h.2, fun h => ⟨isSome_member_of_test htest h.1, h⟩⟩

end Rules

section Steps

variable {test : Json → Bool} {get : Json → α} {value : Json} {next : α → Handler σ β}
  {optional : Option Json → Handler σ β} {name : String}

theorem getTyped_bind (h : test value = true) : (getTyped test get value >>= next) = next (get value) := by
  rw [getTyped, if_pos h, read_some_bind]

theorem findMember_bind (h : value.isObject = true) :
    (value.findMember name >>= optional) = optional (value.member name) := getTyped_bind h

-- What passes a test is the field, when null does not pass it.
theorem any_member (htest : test null = false) : (value.member name).any test = test (value.field name) := by
  cases h : value.member name with
  | none => rw [field, h, Option.any_none, Option.getD_none, htest]
  | some found => rw [field, h, Option.any_some, Option.getD_some]

theorem member_eq_some_field (h : (value.member name).isSome = true) :
    value.member name = some (value.field name) := by
  obtain ⟨found, hfound⟩ := Option.isSome_iff_exists.mp h
  rw [field, hfound, Option.getD_some]

end Steps

theorem closed_getMemberCheck {holds : ∀ {α : Type}, Handler σ α → Prop} (h : Closed holds) (src : Json)
    (name : String) (test : Json → Bool) : holds (src.getMemberCheck name test) :=
  h.bind (h.quiet rfl) fun _ => h.bind (h.quiet rfl) fun _ => h.bind (h.quiet rfl) fun _ =>
    h.bind (h.quiet rfl) fun _ => h.quiet rfl

section Leaves

variable {post : σ → Prop} {s : σ} {test : Json → Bool} {get : Json → α} {value src : Json}
  {next : α → Handler σ β} {more : Json → Handler σ β} {optional : Option Json → Handler σ β}
  {position : Nat} {name : String}

theorem leaves_getTyped_bind : (getTyped test get value >>= next).Leaves post s ↔
    (test value = true → (next (get value)).Leaves post s) := by
  rw [getTyped, leaves_read_bind]
  cases h : test value <;> simp

theorem leaves_index_bind : (value.index position >>= more).Leaves post s ↔
    (position < value.elements.length → (more (value.place position)).Leaves post s) := by
  simp only [index, leaves_read_bind, element_eq_some_iff, and_imp]
  constructor
  · intro h hlt
    exact h _ hlt rfl
  · rintro h found hlt rfl
    exact h hlt

theorem leaves_findMember_bind : (src.findMember name >>= optional).Leaves post s ↔
    (src.isObject = true → (optional (src.member name)).Leaves post s) := leaves_getTyped_bind

theorem leaves_read_member_bind : (read (src.member name) >>= more).Leaves post s ↔
    ((src.member name).isSome = true → (more (src.field name)).Leaves post s) := by
  rw [leaves_read_bind]
  cases h : src.member name <;> simp [field, h]

theorem returns_getMemberCheck :
    (src.getMemberCheck name test : Handler σ Json).Returns value ↔ src.isObject = true ∧
      (src.member name).isSome = true ∧ test (src.field name) = true ∧ src.field name = value := by
  cases h : src.isObject <;> cases hmember : src.member name <;>
    simp [returns_bind, getMemberCheck, findMember, getTyped, field, h, hmember]

theorem leaves_getMemberCheck_bind : (src.getMemberCheck name test >>= more).Leaves post s ↔
    (src.isObject = true → (src.member name).isSome = true → test (src.field name) = true →
      (more (src.field name)).Leaves post s) := by
  have hwrites : (src.getMemberCheck name test).writes s = s :=
    closed_getMemberCheck (closed_keeps id) src name test s
  simp only [leaves_bind, returns_getMemberCheck, hwrites, and_imp]
  constructor
  · intro h hobject hmember htest
    exact h _ hobject hmember htest rfl
  · rintro h found hobject hmember htest rfl
    exact h hobject hmember htest

end Leaves

end Json

end LiveReceptor.Worker
