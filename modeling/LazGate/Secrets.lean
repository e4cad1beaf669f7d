import LazGate.Text
import LazGate.Lib.Base64

/-!
# Secrets at rest

The queue and the domain store keep some values sealed with AES-GCM, as a text with a prefix. A
value that has the prefix already is taken for a sealed one.
-/

namespace LazGate.Secrets

abbrev Bytes := List UInt8

/-! ## The key -/

def ascii (s : String) : Bytes := s.toList.map fun c => .ofNat c.toNat

/-- `base64.StdEncoding`. -/
def std : Base64.Alphabet UInt8 where
  digits := ascii "ABCDEFGHIJKLMNOPQRSTUVWXYZabcdefghijklmnopqrstuvwxyz0123456789+/"
  skipped b := b == 10 || b == 13
  pad := 61
  length_digits := by decide +kernel
  nodup := by decide +kernel
  plain := by
    have hall : (ascii "ABCDEFGHIJKLMNOPQRSTUVWXYZabcdefghijklmnopqrstuvwxyz0123456789+/").all
        (fun b => (b == 10 || b == 13) == false) = true := by decide +kernel
    exact fun b hb => eq_of_beq (List.all_eq_true.1 hall b hb)

/-- The value of a hexadecimal digit. -/
def hexValue (b : UInt8) : Option ℕ :=
  if 48 ≤ b ∧ b ≤ 57 then some (b.toNat - 48)
  else if 97 ≤ b ∧ b ≤ 102 then some (b.toNat - 87)
  else if 65 ≤ b ∧ b ≤ 70 then some (b.toNat - 55)
  else none

/-- `hex.DecodeString`. -/
def hexDecode : Bytes → Option Bytes
  | [] => some []
  | [_] => none
  | a :: b :: rest => do
    let high ← hexValue a
    let low ← hexValue b
    let tail ← hexDecode rest
    return .ofNat (16 * high + low) :: tail

/-- `cipher.AEAD` without additional data: what is sealed with a nonce can be opened with it, and
nothing else can. -/
structure AEAD where
  nonceSize : ℕ
  sealWith : Bytes → Bytes → Bytes
  openWith : Bytes → Bytes → Option Bytes
  openWith_iff : ∀ nonce sealed plain, nonce.length = nonceSize →
    (openWith nonce sealed = some plain ↔ sealed = sealWith nonce plain)

/-- The primitives of the standard library. -/
structure Crypto where
  sha256 : Bytes → Bytes
  length_sha256 : ∀ text, (sha256 text).length = 32
  gcm : Bytes → AEAD

variable (C : Crypto)

def secretKeyBytes (value : Bytes) : Bytes :=
  match (Base64.decode std value).filter (·.length = 32) with
  | some decoded => decoded
  | none =>
    match (Base64.decodePadded std value).filter (·.length = 32) with
    | some decoded => decoded
    | none => ((hexDecode value).filter (·.length = 32)).getD (C.sha256 value)

/-- `aes.NewCipher` and `cipher.NewGCM`. -/
def newGCM (key : Bytes) : Except String AEAD :=
  if key.length = 16 ∨ key.length = 24 ∨ key.length = 32 then .ok (C.gcm key)
  else .error s!"crypto/aes: invalid key size {key.length}"

def newCipher (key : String) : Except String (Option AEAD) :=
  let key := trimSpace key
  if key = "" then .ok none
  else (newGCM C (secretKeyBytes C key.toUTF8.data.toList)).map some

theorem length_of_filter {o : Option Bytes} {key : Bytes}
    (h : o.filter (·.length = 32) = some key) : key.length = 32 := by
  rw [Option.filter_eq_some_iff] at h
  exact of_decide_eq_true h.2

theorem length_secretKeyBytes (value : Bytes) : (secretKeyBytes C value).length = 32 := by
  unfold secretKeyBytes
  split
  · rename_i h
    exact length_of_filter h
  · split
    · rename_i h
      exact length_of_filter h
    · cases h : (hexDecode value).filter (·.length = 32) with
      | none => exact C.length_sha256 value
      | some decoded => exact length_of_filter h

theorem newCipher_eq {key : String} (hkey : trimSpace key ≠ "") :
    newCipher C key =
      .ok (some (C.gcm (secretKeyBytes C (trimSpace key).toUTF8.data.toList))) := by
  rw [newCipher, if_neg hkey, newGCM, if_pos (Or.inr (Or.inr (length_secretKeyBytes C _)))]
  rfl

/-! ## Sealing and opening -/

def encryptedPrefix : Bytes := ascii "enc:v1:"

def AEAD.protect (aead : AEAD) (nonce value : Bytes) : Bytes :=
  if value = [] ∨ encryptedPrefix <+: value then value
  else encryptedPrefix ++ Base64.encode std (nonce ++ aead.sealWith nonce value)

/-- What is read from a stored value; nothing if it cannot be opened. -/
def AEAD.reveal (aead : AEAD) (value : Bytes) : Bytes :=
  if ¬ encryptedPrefix <+: value then value
  else match Base64.decode std (value.drop encryptedPrefix.length) with
    | none => []
    | some payload =>
      if payload.length < aead.nonceSize then []
      else (aead.openWith (payload.take aead.nonceSize) (payload.drop aead.nonceSize)).getD []

theorem AEAD.protect_ne {aead : AEAD} {nonce value : Bytes} (hne : value ≠ [])
    (hvalue : ¬ encryptedPrefix <+: value) : aead.protect nonce value ≠ value := by
  rw [protect, if_neg (not_or.2 ⟨hne, hvalue⟩)]
  intro h
  exact hvalue (h ▸ List.prefix_append _ _)

theorem AEAD.reveal_protect {aead : AEAD} {nonce value : Bytes}
    (hnonce : nonce.length = aead.nonceSize) (hvalue : ¬ encryptedPrefix <+: value) :
    aead.reveal (aead.protect nonce value) = value := by
  by_cases hempty : value = []
  · subst hempty
    rw [protect, if_pos (Or.inl rfl), reveal, if_pos hvalue]
  · have hopen : aead.openWith nonce (aead.sealWith nonce value) = some value :=
      (aead.openWith_iff nonce _ value hnonce).2 rfl
    have hlong : ¬ (nonce ++ aead.sealWith nonce value).length < aead.nonceSize := by
      rw [List.length_append, hnonce]
      omega
    rw [protect, if_neg (not_or.2 ⟨hempty, hvalue⟩), reveal,
      if_neg (not_not.2 (List.prefix_append _ _)), List.drop_left, Base64.decode_encode]
    dsimp only
    rw [if_neg hlong, ← hnonce, List.take_left, List.drop_left, hopen, Option.getD_some]

/-- `queue.SecretBox`. -/
structure SecretBox where
  aead : AEAD

def newSecretBox (key : String) : Except String (Option SecretBox) :=
  (newCipher C key).map (·.map SecretBox.mk)

/-- `Seal`; without a box a value is stored as it is. -/
def SecretBox.sealValue (b : Option SecretBox) (nonce raw : Bytes) : Bytes :=
  b.elim raw fun b => b.aead.protect nonce raw

/-- `queue.SecureStore`, apart from the store under it. -/
structure TransportStore where
  aead : AEAD

/-- `queue.WrapSecrets`. -/
def TransportStore.wrapSecrets (key : String) : Except String (Option TransportStore) :=
  (newSecretBox C key).map (·.map fun box => ⟨box.aead⟩)

def TransportStore.sealValue (s : TransportStore) (nonce raw : Bytes) : Bytes :=
  SecretBox.sealValue (some ⟨s.aead⟩) nonce raw

def TransportStore.openValue (s : TransportStore) (raw : Bytes) : Bytes := s.aead.reveal raw

/-- `store.SecureStore`, apart from the store under it. -/
structure DomainStore where
  aead : AEAD

/-- `store.WrapSecrets`. -/
def DomainStore.wrapSecrets (key : String) : Except String (Option DomainStore) :=
  (newCipher C key).map (·.map DomainStore.mk)

def DomainStore.encrypt (s : DomainStore) (nonce value : Bytes) : Bytes :=
  s.aead.protect nonce value

def DomainStore.decrypt (s : DomainStore) (value : Bytes) : Bytes := s.aead.reveal value

/-! ## Secrets survive -/

/-- A stored value comes back, and is not stored as it is unless it is empty. -/
def Survives (nonceSize : Option ℕ) (store : Bytes → Bytes → Bytes) (read : Bytes → Bytes)
    (v : Bytes) : Prop :=
  ∀ nonce : Bytes, (∀ n ∈ nonceSize, nonce.length = n) →
    read (store nonce v) = v ∧ (v ≠ [] → store nonce v ≠ v)

theorem AEAD.survives_iff (aead : AEAD) (v : Bytes) :
    Survives (some aead.nonceSize) aead.protect aead.reveal v ↔
      v = [] ∨ ¬ encryptedPrefix <+: v := by
  constructor
  · intro h
    refine or_iff_not_imp_left.2 fun hne hprefix => ?_
    have hstored := (h (List.replicate aead.nonceSize 0) (by simp)).2 hne
    exact hstored (if_pos (Or.inr hprefix))
  · intro hv nonce hnonce
    have hplain : ¬ encryptedPrefix <+: v := by
      rcases hv with rfl | hv
      · decide
      · exact hv
    exact ⟨AEAD.reveal_protect (hnonce _ rfl) hplain, fun hne => AEAD.protect_ne hne hplain⟩

/-- Values are stored as they are without a key. -/
theorem survives_plain_iff (v : Bytes) : Survives none (fun _ v => v) id v ↔ v = [] := by
  constructor
  · intro h
    by_contra hne
    exact (h [] (by simp)).2 hne rfl
  · rintro rfl nonce -
    exact ⟨rfl, fun hne => absurd rfl hne⟩

/-- The values that survive in both stores: the empty one, and with a key that is not blank those
without the prefix. -/
theorem secrets_survive_iff (key : String) (v : Bytes) :
    (∃ s t, TransportStore.wrapSecrets C key = .ok s ∧ DomainStore.wrapSecrets C key = .ok t ∧
      Survives (s.map (·.aead.nonceSize)) (s.elim (fun _ v => v) (·.sealValue))
        (s.elim id (·.openValue)) v ∧
      Survives (t.map (·.aead.nonceSize)) (t.elim (fun _ v => v) (·.encrypt))
        (t.elim id (·.decrypt)) v) ↔
      v = [] ∨ trimSpace key ≠ "" ∧ ¬ encryptedPrefix <+: v := by
  by_cases hkey : trimSpace key = ""
  · have hcipher : newCipher C key = .ok none := if_pos hkey
    simp only [TransportStore.wrapSecrets, newSecretBox, DomainStore.wrapSecrets, hcipher]
    simp [Except.map, survives_plain_iff, hkey]
  · obtain ⟨aead, hcipher⟩ : ∃ aead, newCipher C key = .ok (some aead) := ⟨_, newCipher_eq C hkey⟩
    have hboth : Survives (some aead.nonceSize) aead.protect aead.reveal v ∧
        Survives (some aead.nonceSize) aead.protect aead.reveal v ↔
          v = [] ∨ trimSpace key ≠ "" ∧ ¬ encryptedPrefix <+: v := by
      rw [and_self, aead.survives_iff, and_iff_right hkey]
    rw [← hboth, TransportStore.wrapSecrets, newSecretBox, DomainStore.wrapSecrets, hcipher]
    constructor
    · rintro ⟨_, _, ⟨⟩, ⟨⟩, h⟩
      exact h
    · exact fun h => ⟨some ⟨aead⟩, some ⟨aead⟩, rfl, rfl, h⟩

namespace Sample

/-- A cipher that puts the nonce in front. -/
def aead : AEAD where
  nonceSize := 12
  sealWith nonce plain := nonce ++ plain
  openWith nonce sealed := if nonce <+: sealed then some (sealed.drop nonce.length) else none
  openWith_iff := by
    intro nonce sealed plain _
    constructor
    · intro h
      split at h
      · rename_i hprefix
        obtain ⟨rest, rfl⟩ := hprefix
        rw [List.drop_left, Option.some.injEq] at h
        rw [h]
      · cases h
    · rintro rfl
      rw [if_pos (List.prefix_append _ _), List.drop_left]

end Sample

/-- A value that is the prefix itself is stored as it is, and comes back empty. -/
theorem secret_with_prefix :
    ∃ nonce : Bytes, nonce.length = Sample.aead.nonceSize ∧
      (⟨Sample.aead⟩ : TransportStore).sealValue nonce encryptedPrefix = encryptedPrefix ∧
      (⟨Sample.aead⟩ : TransportStore).openValue encryptedPrefix = [] ∧
      (⟨Sample.aead⟩ : DomainStore).encrypt nonce encryptedPrefix = encryptedPrefix ∧
      (⟨Sample.aead⟩ : DomainStore).decrypt encryptedPrefix = [] ∧ encryptedPrefix ≠ [] :=
  ⟨List.replicate 12 0, by decide +kernel⟩

end LazGate.Secrets
