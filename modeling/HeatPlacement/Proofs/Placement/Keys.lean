import HeatPlacement.Placement.Operation
import HeatPlacement.Proofs.Groups.Names
import HeatPlacement.Store.Replicated
import HeatPlacement.Text.Entity

/-!
# Keys of requests

The key of a request is written over and over: the markup characters of its identifier become
entities, the name of the operation is put in front, and the path to a row of a replica escapes what
is left. None of the three loses anything, so no two requests meet under one key.

* `Text.Entity.escape_inj`, `Text.Entity.not_mem_escape`: entities keep a text apart, and free of
  markup
* `Text.Percent.ofOctet_append_inj`: no two octets are escaped alike, whatever stands behind them
* `Operation.requestKey_inj`: **a key determines** the operation and the identifier
* `Replicas.rowsPath_inj`: **a path determines** the key of the row
* `requests_kept_apart`: different requests have different rows, in either kind of store
-/

namespace HeatPlacement

/-! ### Entities -/

namespace Text.Entity

/-- The characters for which entities stand, but the ampersand that begins them. -/
def markup : List Char := ['<', '>', '"', '\x27']

@[simp] theorem toList_escape (text : String) : (escape text).toList = encode text.toList :=
  String.toList_ofList

/-- No entity holds markup. -/
theorem not_mem_ofChar {c mark : Char} (hmark : mark ∈ markup) : mark ∉ ofChar c := by
  simp only [markup, List.mem_cons, List.not_mem_nil, or_false] at hmark
  unfold ofChar
  split
  case h_6 hlt hgt hquote hapostrophe =>
    -- Any other character stands for itself.
    rintro hmem
    obtain rfl := List.mem_singleton.mp hmem
    rcases hmark with rfl | rfl | rfl | rfl
    · exact hlt rfl
    · exact hgt rfl
    · exact hquote rfl
    · exact hapostrophe rfl
  all_goals rcases hmark with rfl | rfl | rfl | rfl <;> decide

/-- An escaped text holds no markup. -/
theorem not_mem_escape {mark : Char} (hmark : mark ∈ markup) (text : String) :
    mark ∉ (escape text).toList := by
  rw [toList_escape, encode, List.mem_flatMap]
  rintro ⟨c, -, hmem⟩
  exact not_mem_ofChar hmark hmem

/-- Different texts are escaped differently. -/
theorem escape_inj {text other : String} : escape text = escape other ↔ text = other := by
  refine ⟨fun h => String.toList_inj.mp ?_, congrArg escape⟩
  have hlist := congrArg String.toList h
  rw [toList_escape, toList_escape] at hlist
  rw [← decode_encode text.toList, hlist, decode_encode]

end Text.Entity

/-! ### Escaped octets -/

namespace Text.Percent

/-- Every octet is a code point. -/
theorem toNat_ofNat_octet (octet : UInt8) : (Char.ofNat octet.toNat).toNat = octet.toNat := by
  have all : ∀ n < 256, (Char.ofNat n).toNat = n := by decide +kernel
  exact all _ octet.toNat_lt

/-- The percent sign is escaped itself. -/
theorem ofNat_ne_percent {octet : UInt8} (h : isUnreserved octet = true) :
    Char.ofNat octet.toNat ≠ '%' := by
  intro heq
  have hvalue : octet.toNat = 37 := by rw [← toNat_ofNat_octet, heq]; rfl
  simp [isUnreserved, hvalue] at h

theorem upperHex_inj {n m : Nat} (hn : n < 16) (hm : m < 16) : upperHex n = upperHex m ↔ n = m := by
  refine ⟨fun h => ?_, congrArg upperHex⟩
  have hvalue := congrArg hexValue? h
  rw [hexValue?_upperHex hn, hexValue?_upperHex hm] at hvalue
  exact Option.some.inj hvalue

/-- **No two octets are escaped alike**, and where the escape of an octet ends can be told from
itself. -/
theorem ofOctet_append_inj {octet other : UInt8} {rest rest' : List Char} :
    ofOctet octet ++ rest = ofOctet other ++ rest' ↔ octet = other ∧ rest = rest' := by
  refine ⟨fun h => ?_, fun ⟨hoctet, hrest⟩ => by rw [hoctet, hrest]⟩
  have hlt := octet.toNat_lt
  have hlt' := other.toNat_lt
  unfold ofOctet at h
  by_cases hfree : isUnreserved octet = true <;> by_cases hfree' : isUnreserved other = true
  · rw [if_pos hfree, if_pos hfree'] at h
    obtain ⟨hchar, hrest⟩ := List.cons.inj h
    have hvalue := congrArg Char.toNat hchar
    rw [toNat_ofNat_octet, toNat_ofNat_octet] at hvalue
    exact ⟨UInt8.toNat_inj.mp hvalue, hrest⟩
  · rw [if_pos hfree, if_neg hfree'] at h
    exact absurd (List.cons.inj h).1 (ofNat_ne_percent hfree)
  · rw [if_neg hfree, if_pos hfree'] at h
    exact absurd (List.cons.inj h).1.symm (ofNat_ne_percent hfree')
  · rw [if_neg hfree, if_neg hfree'] at h
    obtain ⟨-, h⟩ := List.cons.inj h
    obtain ⟨hhigh, h⟩ := List.cons.inj h
    obtain ⟨hlow, hrest⟩ := List.cons.inj h
    have hhigh := (upperHex_inj (by omega) (by omega)).mp hhigh
    have hlow := (upperHex_inj (by omega) (by omega)).mp hlow
    exact ⟨UInt8.toNat_inj.mp (by omega), hrest⟩

/-- Different octets are escaped differently, however many there are. -/
theorem flatMap_ofOctet_inj {octets others : List UInt8} :
    octets.flatMap ofOctet = others.flatMap ofOctet ↔ octets = others := by
  have hne : ∀ octet (rest : List UInt8), (octet :: rest).flatMap ofOctet ≠ [] := by
    intro octet rest
    rw [List.flatMap_cons, ofOctet]
    split <;> exact List.cons_ne_nil _ _
  refine ⟨fun h => ?_, congrArg (List.flatMap ofOctet)⟩
  induction octets generalizing others with
  | nil =>
    cases others with
    | nil => rfl
    | cons other more => exact absurd h.symm (hne other more)
  | cons octet rest ih =>
    cases others with
    | nil => exact absurd h (hne octet rest)
    | cons other more =>
      rw [List.flatMap_cons, List.flatMap_cons, ofOctet_append_inj] at h
      rw [h.1, ih h.2]

/-- Different texts are encoded differently. -/
theorem encode_inj {text other : String} : encode text = encode other ↔ text = other := by
  rw [encode, encode, String.ofList_inj, flatMap_ofOctet_inj]
  exact ⟨octets_inj, congrArg octets⟩

end Text.Percent

/-! ### Keys and paths -/

namespace Operation

/-- The name of an operation ends at the first hyphen of a key. -/
theorem hyphen_not_mem_name (operation : Operation) : '-' ∉ operation.name.toList := by
  cases operation <;> decide

/-- No two operations have the same name. -/
theorem name_inj {operation other : Operation} :
    operation.name = other.name ↔ operation = other := by
  refine ⟨fun h => ?_, congrArg name⟩
  have hall : ∀ operation ∈ all, ∀ other ∈ all,
      operation.name = other.name → operation = other := by decide
  exact hall operation operation.mem_all other other.mem_all h

/-- **A key determines** the operation and the identifier. -/
theorem requestKey_inj {operation other : Operation} {requestId otherId : String} :
    operation.requestKey requestId = other.requestKey otherId ↔
      operation = other ∧ requestId = otherId := by
  refine ⟨fun h => ?_, fun ⟨hoperation, hid⟩ => by rw [hoperation, hid]⟩
  -- Read from its end, a key has its first hyphen last.
  have hlist : requestId.toList.reverse ++ '-' :: operation.name.toList.reverse =
      otherId.toList.reverse ++ '-' :: other.name.toList.reverse := by
    have hreverse := congrArg (fun key => key.toList.reverse) h
    simp only [requestKey, String.toList_append, List.reverse_append, List.append_assoc] at hreverse
    exact hreverse
  have hname (operation : Operation) : '-' ∉ operation.name.toList.reverse :=
    fun hmem => operation.hyphen_not_mem_name (List.mem_reverse.mp hmem)
  obtain ⟨hid, hoperation⟩ :=
    Heat.append_cons_inj_of_not_mem (hname operation) (hname other) hlist
  exact ⟨name_inj.mp (String.toList_inj.mp (List.reverse_inj.mp hoperation)),
    String.toList_inj.mp (List.reverse_inj.mp hid)⟩

end Operation

/-- **A path determines** the key of the row. -/
theorem Replicas.rowsPath_inj (replicas : Replicas) (table : Table) {key other : String} :
    replicas.rowsPath table (some key) = replicas.rowsPath table (some other) ↔ key = other := by
  rw [rowsPath, rowsPath, String.append_right_inj, String.append_right_inj,
    Text.Percent.encode_inj]

/-- **Different requests have different rows.** The key of a request, made of its operation and its
escaped identifier, determines both, and so does the path to the row of a table under this key. An
escaped identifier holds no markup, and reading the entities gives the identifier back. -/
theorem requests_kept_apart (operation other : Operation) (requestId otherId : String) :
    (operation.requestKey (Text.Entity.escape requestId) =
        other.requestKey (Text.Entity.escape otherId) ↔
      operation = other ∧ requestId = otherId) ∧
    (∀ (replicas : Replicas) (table : Table),
      replicas.rowsPath table (some (operation.requestKey (Text.Entity.escape requestId))) =
          replicas.rowsPath table (some (other.requestKey (Text.Entity.escape otherId))) ↔
        operation = other ∧ requestId = otherId) ∧
    Text.Entity.decode (Text.Entity.escape requestId).toList = requestId.toList ∧
    ∀ mark ∈ Text.Entity.markup, mark ∉ (Text.Entity.escape requestId).toList := by
  have hkey : operation.requestKey (Text.Entity.escape requestId) =
      other.requestKey (Text.Entity.escape otherId) ↔ operation = other ∧ requestId = otherId := by
    rw [Operation.requestKey_inj, Text.Entity.escape_inj]
  refine ⟨hkey, fun replicas table => (replicas.rowsPath_inj table).trans hkey, ?_,
    fun mark hmark => Text.Entity.not_mem_escape hmark requestId⟩
  rw [Text.Entity.toList_escape, Text.Entity.decode_encode]

end HeatPlacement
