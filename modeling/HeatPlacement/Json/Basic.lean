import HeatPlacement.Decimal.Double

/-!
# JSON values

Values of JSON documents with the members of an object in their order.

* `Fields`: a list of named values; `Fields.get?`, `Fields.insert` (an existing name keeps its
  place), `Fields.extend`, `Fields.swapErase` (the last entry takes the place of the removed one)
* `Json`: the values, with decidable equality
* `Json.member?`: the member of an object
-/

namespace HeatPlacement

/-! ### Named values in order -/

/-- Named values in their order. Every function here keeps the names distinct. -/
abbrev Fields (α : Type) := List (String × α)

namespace Fields

variable {α β : Type}

/-- The value under a name. -/
def get? : Fields α → String → Option α
  | [], _ => none
  | (name, value) :: rest, key => if name = key then some value else get? rest key

@[simp] theorem get?_nil (key : String) : get? ([] : Fields α) key = none := rfl

theorem get?_cons (name : String) (value : α) (rest : Fields α) (key : String) :
    get? ((name, value) :: rest) key = if name = key then some value else get? rest key := rfl

/-- Whether a name is bound. -/
def has (fields : Fields α) (key : String) : Bool := (get? fields key).isSome

/-- Bind a name: an existing one keeps its place and gets the new value, a new one comes last. -/
def insert : Fields α → String → α → Fields α
  | [], key, value => [(key, value)]
  | (name, old) :: rest, key, value =>
    if name = key then (name, value) :: rest else (name, old) :: insert rest key value

@[simp] theorem insert_nil (key : String) (value : α) :
    insert ([] : Fields α) key value = [(key, value)] := rfl

theorem insert_cons (name : String) (old : α) (rest : Fields α) (key : String) (value : α) :
    insert ((name, old) :: rest) key value =
      if name = key then (name, value) :: rest else (name, old) :: insert rest key value := rfl

/-- After `insert` the key has the new value and every other name what it had. -/
theorem get?_insert (fields : Fields α) (key : String) (value : α) (name : String) :
    get? (insert fields key value) name = if key = name then some value else get? fields name := by
  induction fields with
  | nil => simp [get?_cons]
  | cons entry rest ih =>
    obtain ⟨other, old⟩ := entry
    by_cases h : other = key
    · subst h
      by_cases h' : other = name <;> simp [insert_cons, get?_cons, h']
    · by_cases h' : other = name
      · subst h'
        simp [insert_cons, get?_cons, h, Ne.symm h]
      · simp [insert_cons, get?_cons, h, h', ih]

/-- Bind every entry of `more`, in order. -/
def extend (fields more : Fields α) : Fields α :=
  more.foldl (fun known entry => insert known entry.1 entry.2) fields

@[simp] theorem extend_nil (fields : Fields α) : extend fields [] = fields := rfl

theorem extend_cons (fields : Fields α) (name : String) (value : α) (more : Fields α) :
    extend fields ((name, value) :: more) = extend (insert fields name value) more := rfl

/-- The names, in order. -/
def names (fields : Fields α) : List String := fields.map Prod.fst

/-- The names of `insert`: those before, and the key at the end if it was not among them. -/
theorem names_insert (fields : Fields α) (key : String) (value : α) :
    names (insert fields key value) =
      if key ∈ names fields then names fields else names fields ++ [key] := by
  induction fields with
  | nil => simp [names]
  | cons entry rest ih =>
    obtain ⟨name, old⟩ := entry
    have ih : (insert rest key value).map Prod.fst =
        if key ∈ rest.map Prod.fst then rest.map Prod.fst else rest.map Prod.fst ++ [key] := ih
    by_cases h : name = key
    · simp [insert_cons, names, h]
    · have h' : key ≠ name := Ne.symm h
      by_cases hm : key ∈ rest.map Prod.fst <;> simp_all [insert_cons, names]

/-- A name is bound iff it is among the names. -/
theorem has_iff_mem (fields : Fields α) (key : String) :
    has fields key = true ↔ key ∈ names fields := by
  induction fields with
  | nil => simp [has, names]
  | cons entry rest ih =>
    obtain ⟨name, value⟩ := entry
    have ih : (get? rest key).isSome = true ↔ key ∈ rest.map Prod.fst := ih
    by_cases h : name = key
    · simp [has, names, get?_cons, h]
    · simp [has, names, get?_cons, h, Ne.symm h, ih]

/-- Remove a name; the last entry takes its place. -/
def swapErase (fields : Fields α) (key : String) : Fields α :=
  match fields.span (fun entry => entry.1 ≠ key) with
  | (before, _ :: after) =>
    match after.getLast? with
    | none => before
    | some last => before ++ last :: after.dropLast
  | (before, []) => before

/-- Remove a name; the other entries keep their places. -/
def erase (fields : Fields α) (key : String) : Fields α :=
  fields.filter fun entry => entry.1 ≠ key

/-- After `erase` the key is unbound and every other name has what it had. -/
theorem get?_erase (fields : Fields α) (key name : String) :
    get? (erase fields key) name = if key = name then none else get? fields name := by
  induction fields with
  | nil => simp [erase]
  | cons entry rest ih =>
    obtain ⟨other, value⟩ := entry
    have ih : get? (rest.filter fun entry => entry.1 ≠ key) name =
        if key = name then none else get? rest name := ih
    by_cases h : other = key
    · subst h
      by_cases h' : other = name <;> simp_all [erase, get?_cons]
    · by_cases h' : other = name
      · subst h'
        simp [erase, get?_cons, h, Ne.symm h]
      · simp_all [erase, get?_cons]

/-- Keep the entries whose name is among `allowed`. -/
def restrict (fields : Fields α) (allowed : List String) : Fields α :=
  fields.filter fun entry => allowed.contains entry.1

/-- Change every value. -/
def mapValues (f : α → β) (fields : Fields α) : Fields β :=
  fields.map fun entry => (entry.1, f entry.2)

end Fields

/-! ### Values -/

/-- A JSON number: an integer of the 64-bit ranges, or a double. -/
inductive Number where
  /-- From `-2 ^ 63` to `2 ^ 64 - 1` when it was read from a text. -/
  | int (n : Int)
  | double (x : Double)
  deriving DecidableEq, Repr, Inhabited

/-- The number as an unsigned 64-bit integer. Doubles never count as integers. -/
def Number.toIndex? : Number → Option Nat
  | .int n => if 0 ≤ n then some n.toNat else none
  | .double _ => none

/-- A JSON value. -/
inductive Json where
  | null
  | bool (b : Bool)
  | num (n : Number)
  | str (s : String)
  | arr (items : List Json)
  | obj (fields : List (String × Json))
  deriving Repr, Inhabited

namespace Json

/-! ### Decidable equality -/

mutual

/-- Decide the equality of two values. -/
def decEq : (a b : Json) → Decidable (a = b)
  | .null, .null => isTrue rfl
  | .bool a, .bool b => if h : a = b then isTrue (by rw [h]) else isFalse (by simpa using h)
  | .num a, .num b => if h : a = b then isTrue (by rw [h]) else isFalse (by simpa using h)
  | .str a, .str b => if h : a = b then isTrue (by rw [h]) else isFalse (by simpa using h)
  | .arr a, .arr b =>
    match decEqItems a b with
    | isTrue h => isTrue (by rw [h])
    | isFalse h => isFalse (by simpa using h)
  | .obj a, .obj b =>
    match decEqFields a b with
    | isTrue h => isTrue (by rw [h])
    | isFalse h => isFalse (by simpa using h)
  | .null, .bool _ | .null, .num _ | .null, .str _ | .null, .arr _ | .null, .obj _
  | .bool _, .null | .bool _, .num _ | .bool _, .str _ | .bool _, .arr _ | .bool _, .obj _
  | .num _, .null | .num _, .bool _ | .num _, .str _ | .num _, .arr _ | .num _, .obj _
  | .str _, .null | .str _, .bool _ | .str _, .num _ | .str _, .arr _ | .str _, .obj _
  | .arr _, .null | .arr _, .bool _ | .arr _, .num _ | .arr _, .str _ | .arr _, .obj _
  | .obj _, .null | .obj _, .bool _ | .obj _, .num _ | .obj _, .str _ | .obj _, .arr _ =>
    isFalse (by simp)
termination_by structural a => a

/-- Decide the equality of two lists of items. -/
def decEqItems : (a b : List Json) → Decidable (a = b)
  | [], [] => isTrue rfl
  | [], _ :: _ | _ :: _, [] => isFalse (by simp)
  | x :: xs, y :: ys =>
    match x.decEq y, decEqItems xs ys with
    | isTrue h, isTrue h' => isTrue (by rw [h, h'])
    | isFalse h, _ => isFalse (by simp [h])
    | _, isFalse h => isFalse (by simp [h])
termination_by structural a => a

/-- Decide the equality of two lists of members. -/
def decEqFields : (a b : List (String × Json)) → Decidable (a = b)
  | [], [] => isTrue rfl
  | [], _ :: _ | _ :: _, [] => isFalse (by simp)
  | x :: xs, y :: ys =>
    match decEqField x y, decEqFields xs ys with
    | isTrue h, isTrue h' => isTrue (by rw [h, h'])
    | isFalse h, _ => isFalse (by simp [h])
    | _, isFalse h => isFalse (by simp [h])
termination_by structural a => a

/-- Decide the equality of two members. -/
def decEqField : (a b : String × Json) → Decidable (a = b)
  | (k, x), (k', y) =>
    if h : k = k' then
      match x.decEq y with
      | isTrue h' => isTrue (by rw [h, h'])
      | isFalse h' => isFalse (by simp [h'])
    else isFalse (by simp [h])
termination_by structural a => a

end

instance : DecidableEq Json := decEq

/-! ### Views -/

/-- The members of an object. -/
def asObj? : Json → Option (Fields Json)
  | .obj fields => some fields
  | _ => none

/-- The items of an array. -/
def asArr? : Json → Option (List Json)
  | .arr items => some items
  | _ => none

/-- The text of a string. -/
def asStr? : Json → Option String
  | .str s => some s
  | _ => none

/-- Whether the value is null. -/
def isNull : Json → Bool
  | .null => true
  | _ => false

/-- The member of an object under a name; other values have none. -/
def member? (value : Json) (name : String) : Option Json :=
  value.asObj?.bind fun fields => Fields.get? fields name

/-- The integer value `n`. -/
def ofNat (n : Nat) : Json := .num (.int n)

/-- The object with one member. -/
def single (name : String) (value : Json) : Json := .obj [(name, value)]

end Json

end HeatPlacement
