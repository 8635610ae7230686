import SharedGraph.ObjectId
import SharedGraph.Proofs.ByteTexts
import SharedGraph.Proofs.Literals

/-! What the name of an object tells. The name of a new object is put together from its kind, the
hash of its first contents, and the time, and it is taken apart at the first colon and at the last
at sign. No kind has a colon in it, and no time an at sign, so both are read back, whatever stands
between them.

Two names differ when what the objects were created from differs: their texts give the two hashes
back, and nonces without a colon make what is hashed unambiguous. What remains is a pair of byte
strings with the same digest. No such pair is known, but there are some, since a digest has
thirty-two bytes; so a statement about names says where it would have to show one. -/
namespace SharedGraph

/-! ## Bytes of a text -/

private theorem byteArray_toList_loop (bytes : ByteArray) (index : Nat) (taken : List UInt8) :
    ByteArray.toList.loop bytes index taken = taken.reverse ++ bytes.data.toList.drop index := by
  induction index, taken using ByteArray.toList.loop.induct bytes with
  | case1 index taken below ih =>
    have inside : index < bytes.data.toList.length := below
    have byte : bytes.get! index = bytes.data.toList[index] := by
      rw [ByteArray.get!, Array.getElem_toList, getElem!_pos bytes.data index below]
    rw [ByteArray.toList.loop, if_pos below, ih, List.drop_eq_getElem_cons inside, byte,
      List.reverse_cons, List.append_assoc]
    rfl
  | case2 index taken beyond =>
    rw [ByteArray.toList.loop, if_neg beyond, List.drop_eq_nil_of_le (Nat.le_of_not_lt beyond),
      List.append_nil]

/-- Different texts have different bytes. -/
theorem toList_toUTF8_injective : Function.Injective fun text : String => text.toUTF8.toList := by
  intro first second same
  simp only [ByteArray.toList, byteArray_toList_loop, List.reverse_nil, List.nil_append, List.drop_zero] at same
  exact String.toByteArray_inj.1 (ByteArray.ext (Array.toList_inj.1 same))

namespace Base64

/-! ## Digits without padding -/

private theorem sextets_lt (bytes : List UInt8) : ∀ value ∈ sextets bytes, value < 64 := by
  induction bytes using sextets.induct with
  | case1 => simp [sextets]
  | case2 a =>
    have := a.toNat_lt
    simp only [sextets, List.mem_cons, List.not_mem_nil, or_false, forall_eq_or_imp, forall_eq]
    omega
  | case3 a b =>
    have := a.toNat_lt
    have := b.toNat_lt
    simp only [sextets, List.mem_cons, List.not_mem_nil, or_false, forall_eq_or_imp, forall_eq]
    omega
  | case4 a b c rest ih =>
    have := a.toNat_lt
    have := b.toNat_lt
    have := c.toNat_lt
    simp only [sextets, List.cons_append, List.nil_append, List.forall_mem_cons]
    exact ⟨by omega, by omega, by omega, by omega, ih⟩

/-- Every digit stands for one value. -/
theorem idxOf_urlSafe {value : Nat} (small : value < 64) :
    urlSafe.idxOf (urlSafe.getD value '=') = value := by
  have all : ∀ value < 64, urlSafe.idxOf (urlSafe.getD value '=') = value := by decide +kernel
  exact all value small

private theorem map_idxOf_encode (bytes : List UInt8) :
    (encode urlSafe bytes).map urlSafe.idxOf = sextets bytes := by
  rw [encode, List.map_map]
  exact (List.map_congr_left fun value member => idxOf_urlSafe (sextets_lt bytes value member)).trans
    (List.map_id _)

/-- Without padding a text alone does not say how long the byte string was. -/
theorem encode_urlSafe_inj {first second : List UInt8} (long : first.length = second.length)
    (same : encode urlSafe first = encode urlSafe second) : first = second := by
  have values : sextets first = sextets second := by
    rw [← map_idxOf_encode first, same, map_idxOf_encode]
  have padded : encodePadded first = encodePadded second := by
    rw [encodePadded, encodePadded, encode, values, long, ← encode]
  have read := congrArg decodePadded? padded
  simpa only [decodePadded?_encodePadded, Option.some.injEq] using read

end Base64

namespace Sha256

private theorem length_hash (message : List UInt8) : (hash message).length = 32 := rfl

/-- Two byte strings that the digest does not keep apart. -/
def Collide (first second : List UInt8) : Prop := first ≠ second ∧ hash first = hash second

end Sha256

/-! ## Times -/

private theorem at_not_mem_writeInteger (value : Int) : '@' ∉ writeInteger value := by
  have digits : '@' ∉ Nat.toDigits 10 value.natAbs := fun member =>
    absurd (Nat.isDigit_of_mem_toDigits (by decide) (by decide) member) (by decide)
  rw [writeInteger, Nat.toList_repr, List.mem_append, not_or]
  exact ⟨by split <;> decide, digits⟩

/-- A text that begins with a digit has no sign. -/
theorem readTime?_of_digit {char : Char} (digit : char.isDigit = true) (rest : List Char) :
    readTime? (char :: rest) =
      if (char :: rest).all Char.isDigit && isTime (digitsValue (char :: rest)) then
        some (digitsValue (char :: rest) : Int) else none := by
  have minus : char ≠ '-' := by rintro rfl; cases digit
  have plus : char ≠ '+' := by rintro rfl; cases digit
  unfold readTime?
  split
  case h_1 negative digits signed =>
    split at signed
    case h_1 equal => exact absurd (List.cons.inj equal).1 minus
    case h_2 equal => exact absurd (List.cons.inj equal).1 plus
    case h_3 =>
      cases signed
      simp only [List.isEmpty_cons, Bool.not_false, Bool.true_and, Bool.false_eq_true, ↓reduceIte]

/-- A time is read back from its text, over the whole range of times. -/
theorem readTime?_writeInteger {value : Int} (fits : isTime value = true) :
    readTime? (writeInteger value) = some value := by
  have digits : ∀ char ∈ Nat.toDigits 10 value.natAbs, char.isDigit = true :=
    fun _ member => Nat.isDigit_of_mem_toDigits (by decide) (by decide) member
  obtain ⟨char, rest, text⟩ :=
    List.exists_cons_of_ne_nil (Nat.toDigits_ne_nil (b := 10) (n := value.natAbs))
  have number := WireTree.digitsValue_toDigits value.natAbs
  rw [text] at digits number
  have all := List.all_eq_true.2 digits
  rw [writeInteger, Nat.toList_repr, text]
  by_cases negative : value < 0
  · have same : -(value.natAbs : Int) = value := by omega
    rw [if_pos negative, List.singleton_append]
    simp only [readTime?, number, same, all, fits, List.isEmpty_cons, Bool.not_false, Bool.and_true, ↓reduceIte]
  · have same : (value.natAbs : Int) = value := by omega
    rw [if_neg negative, List.nil_append, readTime?_of_digit (digits char List.mem_cons_self), number,
      same, all, fits, Bool.and_true, if_pos rfl]

/-! ## Names -/

namespace ObjectId

private theorem before?_append {mark : Char} {front : List Char} (absent : mark ∉ front)
    (rest : List Char) : before? mark (front ++ mark :: rest) = some front := by
  have others : ∀ char ∈ front, (char != mark) = true := fun char member =>
    bne_iff_ne.2 (ne_of_mem_of_not_mem member absent)
  rw [before?, if_pos (List.contains_iff_mem.2 (by simp)), List.takeWhile_append_of_pos others,
    List.takeWhile_cons_of_neg (by simp), List.append_nil]

end ObjectId

theorem Kind.ofName?_name (kind : Kind) : Kind.ofName? kind.name = some kind := by
  cases kind <;> rfl

/-- What the name of a new object is made from: its kind, the text of its first contents, the nonce
of whoever creates it, and the time. -/
structure Origin where
  kind : Kind
  contents : String
  nonce : String
  createdAt : Int
  fits : isTime createdAt = true
  deriving DecidableEq

namespace Origin

def id (origin : Origin) : ObjectId :=
  .derive origin.kind origin.contents origin.nonce origin.createdAt

/-- The bytes that the hash in the name is computed from. -/
def hashed (origin : Origin) : List UInt8 := (origin.contents ++ ":" ++ origin.nonce).toUTF8.toList

/-- The hash as it stands in the name. -/
def digits (origin : Origin) : List Char := Base64.encode Base64.urlSafe (Sha256.hash origin.hashed)

variable (origin : Origin) {first second : Origin}

private theorem toList_id : origin.id.text.toList =
    origin.kind.name.toList ++ ':' :: (origin.digits ++ '@' :: writeInteger origin.createdAt) := by
  simp only [id, ObjectId.derive, digits, hashed, String.toList_append, String.toList_ofList,
    List.append_assoc]
  rfl

/-- The name of the root has no colon. -/
theorem id_ne_root : origin.id ≠ .root := by
  intro root
  have colon : ':' ∈ origin.id.text.toList := by simp [toList_id]
  rw [root] at colon
  exact absurd colon (by decide)

private theorem kind?_id : origin.id.kind? = some origin.kind := by
  have plain : ':' ∉ origin.kind.name.toList := by cases origin.kind <;> decide
  have other : origin.id.isRoot = false := decide_eq_false origin.id_ne_root
  simp only [ObjectId.kind?, other, Bool.false_eq_true, ↓reduceIte, toList_id,
    ObjectId.before?_append plain, Option.bind_some, String.ofList_toList, Kind.ofName?_name]

private theorem createdAt?_id : origin.id.createdAt? = some origin.createdAt := by
  have plain : '@' ∉ (writeInteger origin.createdAt).reverse := by
    rw [List.mem_reverse]
    exact at_not_mem_writeInteger _
  have backwards : origin.id.text.toList.reverse = (writeInteger origin.createdAt).reverse ++ '@' ::
      (origin.kind.name.toList ++ ':' :: origin.digits).reverse := by
    simp only [toList_id, List.reverse_append, List.reverse_cons, List.append_assoc,
      List.cons_append, List.nil_append]
  rw [ObjectId.createdAt?, backwards, ObjectId.before?_append plain, Option.bind_some,
    List.reverse_reverse, readTime?_writeInteger origin.fits]

theorem isValid_id : origin.id.isValid = true := by
  rw [ObjectId.isValid, kind?_id, createdAt?_id]
  simp only [Option.isSome_some, Bool.and_self, Bool.or_true]

/-- A name gives back the kind, the time and the digest. -/
theorem of_id_eq (same : first.id = second.id) : first.kind = second.kind ∧
    first.createdAt = second.createdAt ∧ Sha256.hash first.hashed = Sha256.hash second.hashed := by
  have kinds : first.kind = second.kind := by
    rw [← Option.some.injEq, ← kind?_id, ← kind?_id, same]
  have times : first.createdAt = second.createdAt := by
    rw [← Option.some.injEq, ← createdAt?_id, ← createdAt?_id, same]
  have texts := congrArg (fun id => id.text.toList) same
  simp only [toList_id, kinds, times, List.append_cancel_left_eq, List.cons.injEq, true_and,
    List.append_cancel_right_eq] at texts
  exact ⟨kinds, times, Base64.encode_urlSafe_inj (by rw [Sha256.length_hash, Sha256.length_hash]) texts⟩

/-- What is hashed can be taken apart at its last colon, which is the one before the nonce. -/
theorem of_hashed_eq (same : first.hashed = second.hashed) (plain : ':' ∉ first.nonce.toList)
    (otherPlain : ':' ∉ second.nonce.toList) :
    first.contents = second.contents ∧ first.nonce = second.nonce := by
  have texts := congrArg String.toList (toList_toUTF8_injective same)
  have backwards (origin : Origin) : (origin.contents ++ ":" ++ origin.nonce).toList.reverse =
      origin.nonce.toList.reverse ++ ':' :: origin.contents.toList.reverse := by
    simp only [String.toList_append, List.reverse_append]
    rfl
  have reversed := congrArg List.reverse texts
  rw [backwards, backwards] at reversed
  have nonces := congrArg (ObjectId.before? ':') reversed
  rw [ObjectId.before?_append (by simpa), ObjectId.before?_append (by simpa), Option.some.injEq,
    List.reverse_inj, String.toList_inj] at nonces
  rw [nonces] at reversed
  have contents := List.append_cancel_left reversed
  rw [List.cons.injEq, List.reverse_inj, String.toList_inj] at contents
  exact ⟨contents.2, nonces⟩

end Origin

/-- Every name that is made for a new object is a valid one, it is not the name of the root, and it
gives back the kind and the time of its object. Where the nonces have no colon, two such names are the
same only for the same origin, unless kind and time agree and the two have found a collision of the
hash. -/
theorem derived_names_unambiguous (origin other : Origin) :
    (origin.id.isValid = true ∧ origin.id.kind? = some origin.kind ∧
      origin.id.createdAt? = some origin.createdAt ∧ origin.id ≠ .root) ∧
    (':' ∉ origin.nonce.toList → ':' ∉ other.nonce.toList →
      (origin.id = other.id ↔ origin = other ∨ origin.kind = other.kind ∧
        origin.createdAt = other.createdAt ∧ Sha256.Collide origin.hashed other.hashed)) := by
  refine ⟨⟨origin.isValid_id, origin.kind?_id, origin.createdAt?_id, origin.id_ne_root⟩, ?_⟩
  intro plain otherPlain
  constructor
  · intro same
    obtain ⟨kinds, times, digests⟩ := Origin.of_id_eq same
    by_cases bytes : origin.hashed = other.hashed
    · obtain ⟨contents, nonces⟩ := Origin.of_hashed_eq bytes plain otherPlain
      cases origin
      cases other
      cases kinds
      cases times
      cases contents
      cases nonces
      exact .inl rfl
    · exact .inr ⟨kinds, times, bytes, digests⟩
  · rintro (rfl | ⟨kinds, times, -, digests⟩)
    · rfl
    · have texts : origin.id.text.toList = other.id.text.toList := by
        rw [Origin.toList_id, Origin.toList_id, kinds, times, Origin.digits, digests, Origin.digits]
      exact congrArg ObjectId.mk (String.toList_inj.1 texts)

/-- The contents hold both marks, and the time is the earliest there is. -/
private def oldest : Origin := ⟨.counter, "a:b@1", "c", leastTime, rfl⟩

private def lookalike : Origin := ⟨.counter, "a", "b@1c", leastTime, rfl⟩

theorem derived_names_oldest :
    oldest.id.kind? = some .counter ∧ oldest.id.createdAt? = some leastTime ∧ oldest.id ≠ lookalike.id := by
  obtain ⟨⟨_, kind, time, _⟩, apart⟩ := derived_names_unambiguous oldest lookalike
  refine ⟨kind, time, fun same => ?_⟩
  rcases (apart (by decide) (by decide)).1 same with equal | ⟨_, _, _, digests⟩
  · exact absurd equal (by decide)
  · have digestsDiffer : Sha256.hash oldest.hashed ≠ Sha256.hash lookalike.hashed := by decide +kernel
    exact digestsDiffer digests

end SharedGraph
