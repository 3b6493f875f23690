import BerryKeep.TextOperations

/-!
Payload bytes, their digest and the manifest format. The digest and the
serialisation come from outside the repository and are parameters: a codec
fixes both, and the only law it carries is the length of a digest.
-/
namespace BerryKeepContentCodec
open TextOperations

abbrev Bytes := List UInt8

structure ChunkRef where
  hash : String
  sizeBytes : Nat
  deriving DecidableEq, Repr

structure ObjectManifest where
  key : String
  totalSizeBytes : Nat
  chunks : List ChunkRef
  deriving DecidableEq, Repr

structure Codec where
  digest : Bytes → Bytes
  digest_length : ∀ payload, (digest payload).length = 32
  encodeManifest : ObjectManifest → Bytes
  decodeManifest : Bytes → Option ObjectManifest

def toHex (bytes : Bytes) : String :=
  String.ofList (bytes.flatMap fun b => [hexDigit (b.toNat / 16), hexDigit (b.toNat % 16)])

def ofHex (text : String) : Bytes :=
  (text.toList.toChunks 2).map fun digits => UInt8.ofNat (digits.foldl
    (fun value c => value * 16 + (if c.isDigit then c.toNat - 48 else c.toNat - 87)) 0)

def hashHex (codec : Codec) (payload : Bytes) : String := toHex (codec.digest payload)

def textBytes (text : String) : Bytes := text.toList.flatMap String.utf8EncodeChar

def bigEndian (bytes : Bytes) : Nat := bytes.foldl (fun n b => n * 256 + b.toNat) 0

def tombstoneManifestHash : String := "__tombstone__"

theorem toHex_length (bytes : Bytes) : (toHex bytes).toList.length = 2 * bytes.length := by
  unfold toHex
  rw [String.toList_ofList]
  induction bytes with
  | nil => rfl
  | cons b bytes ih =>
    rw [List.flatMap_cons, List.length_append, ih]
    simp only [List.length_cons, List.length_nil]
    omega

theorem hexDigit_injective : ∀ n < 16, ∀ m < 16, hexDigit n = hexDigit m → n = m := by decide

theorem toHex_injective : ∀ {bytes others : Bytes}, toHex bytes = toHex others → bytes = others := by
  have digits : ∀ bytes others : Bytes,
      (bytes.flatMap fun b => [hexDigit (b.toNat / 16), hexDigit (b.toNat % 16)]) =
        (others.flatMap fun b => [hexDigit (b.toNat / 16), hexDigit (b.toNat % 16)]) →
      bytes = others := by
    intro bytes
    induction bytes with
    | nil =>
      intro others same
      cases others with
      | nil => rfl
      | cons c others => simp at same
    | cons b bytes ih =>
      intro others same
      cases others with
      | nil => simp at same
      | cons c others =>
        simp only [List.flatMap_cons, List.cons_append, List.nil_append, List.cons.injEq] at same
        obtain ⟨high, low, rest⟩ := same
        have below := b.toNat_lt
        have below' := c.toNat_lt
        have quotient := hexDigit_injective _ (by omega) _ (by omega) high
        have remainder := hexDigit_injective _ (by omega) _ (by omega) low
        have byte : b = c := UInt8.toNat_inj.mp (by omega)
        rw [byte, ih others rest]
  intro bytes others same
  exact digits bytes others (String.ofList_injective same)

theorem hexDigit_isHex : ∀ n < 16, isHexDigit (hexDigit n) = true := by decide

theorem hashHex_isHex (codec : Codec) (payload : Bytes) :
    isHexOfLength 64 (hashHex codec payload) = true := by
  unfold isHexOfLength
  rw [Bool.and_eq_true, beq_iff_eq, List.all_eq_true]
  constructor
  · rw [hashHex, toHex_length, codec.digest_length]
  · intro digit listed
    rw [hashHex, toHex, String.toList_ofList, List.mem_flatMap] at listed
    obtain ⟨byte, _, half⟩ := listed
    have below := byte.toNat_lt
    simp only [List.mem_cons, List.not_mem_nil, or_false] at half
    rcases half with rfl | rfl
    · exact hexDigit_isHex _ (by omega)
    · exact hexDigit_isHex _ (by omega)

theorem hashHex_ne_tombstone (codec : Codec) (payload : Bytes) :
    hashHex codec payload ≠ tombstoneManifestHash := by
  intro same
  have length := toHex_length (codec.digest payload)
  rw [codec.digest_length, ← hashHex, same] at length
  revert length
  decide

def manifestHashLooksSafeFilename (manifest_hash : String) : Bool := isHexOfLength 64 manifest_hash

inductive StoreError where
  | bail (message : String)
  | io
  | panicked
  | outOfFuel
  deriving DecidableEq, Repr

end BerryKeepContentCodec
