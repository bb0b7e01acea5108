/-!
# Markup characters as entities

* `Text.Entity.encode`: the five markup characters become entities
* `Text.Entity.decode`: the entities become the characters again
* `Text.Entity.decode_encode`: nothing is lost
-/

namespace HeatPlacement.Text.Entity

/-- What is written for a character: an entity for each of the five markup characters. -/
def ofChar (c : Char) : List Char :=
  match c with
  | '&' => ['&', 'a', 'm', 'p', ';']
  | '<' => ['&', 'l', 't', ';']
  | '>' => ['&', 'g', 't', ';']
  | '"' => ['&', 'q', 'u', 'o', 't', ';']
  | '\x27' => ['&', '#', '3', '9', ';']
  | c => [c]

/-- Write the markup characters of a text as entities. -/
def encode (text : List Char) : List Char := text.flatMap ofChar

@[simp] theorem encode_nil : encode [] = [] := rfl

@[simp] theorem encode_cons (c : Char) (rest : List Char) :
    encode (c :: rest) = ofChar c ++ encode rest := rfl

/-- Read the five entities back. Any other text stays. -/
def decode : List Char → List Char
  | [] => []
  | '&' :: 'a' :: 'm' :: 'p' :: ';' :: rest => '&' :: decode rest
  | '&' :: 'l' :: 't' :: ';' :: rest => '<' :: decode rest
  | '&' :: 'g' :: 't' :: ';' :: rest => '>' :: decode rest
  | '&' :: 'q' :: 'u' :: 'o' :: 't' :: ';' :: rest => '"' :: decode rest
  | '&' :: '#' :: '3' :: '9' :: ';' :: rest => '\x27' :: decode rest
  | c :: rest => c :: decode rest

/-- A character that is no ampersand stands for itself. -/
theorem decode_cons {c : Char} (h : c ≠ '&') (rest : List Char) :
    decode (c :: rest) = c :: decode rest := by
  rw [decode.eq_def]
  split <;> simp_all

/-- What is written for a character is read as this character. -/
theorem decode_ofChar_append (c : Char) (rest : List Char) :
    decode (ofChar c ++ rest) = c :: decode rest := by
  unfold ofChar
  split
  · simp [decode]
  · simp [decode]
  · simp [decode]
  · simp [decode]
  · simp [decode]
  · next h _ _ _ _ => exact decode_cons h rest

/-- Reading undoes writing. -/
theorem decode_encode (text : List Char) : decode (encode text) = text := by
  induction text with
  | nil => rfl
  | cons c rest ih => rw [encode_cons, decode_ofChar_append, ih]

/-- The text with entities for its markup characters. -/
def escape (text : String) : String := String.ofList (encode text.toList)

example : escape "a<b>&\"" = "a&lt;b&gt;&amp;&quot;" := by decide +kernel

end HeatPlacement.Text.Entity
