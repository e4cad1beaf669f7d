import LazGate.Server.Auth.Admin

/-!
# The lite challenge

A client without a password proves that it knows the name of its account: the server asks for four
characters of the name, at positions drawn from a hash of it, and for a proof of work
(`internal/server/transport/http/client/lite_auth.go`).
-/

namespace LazGate.Lite

/-- A SHA-256 sum. -/
abbrev Digest : Type := Fin 32 → UInt8

/-- What the lite authentication uses of other packages. -/
structure Library where
  crypto : Crypto
  /-- `sha256.Sum256` of the bytes of a text. -/
  sum256 : String → Digest
  /-- `unicode.ToLower`. -/
  toLower : Char → Char
  /-- `unicode.ToUpper`. -/
  toUpper : Char → Char

def liteChallengeTTL : Time := 5 * minute

def liteChallengePoWBits : ℕ := 18

def liteChallengePurpose : String := "lite-challenge-v1"

def liteChallengePosition : ℕ := 4

def errLiteInvalid : String := "invalid lite auth"

variable (L : Library)

/-- `strings.ToLower`. -/
def lower (s : String) : String := String.ofList (s.toList.map L.toLower)

/-! ## Drawing the positions -/

/-- The index that round `i` draws for a name of `n` characters. -/
def index (seed : Digest) (n i : ℕ) : ℤ := ((seed (Fin.ofNat 32 i)).toNat : ℤ) % n

/-- The loop of `challengePositions` from round `i` on, for at most the given number of rounds.
The positions drawn so far are those that `seen` holds. -/
def drawPositions (seed : Digest) (n : ℕ) : ℕ → ℕ → List ℤ → Option (List ℤ)
  | 0, _, positions => if positions.length < liteChallengePosition then none else some positions
  | rounds + 1, i, positions =>
    if positions.length < liteChallengePosition then
      if index seed n i ∈ positions then drawPositions seed n rounds (i + 1) positions
      else drawPositions seed n rounds (i + 1) (positions ++ [index seed n i])
    else some positions

/-- `challengePositions`; there is no result while the loop has not ended. -/
def challengePositions (rounds : ℕ) (username : String) : Option (Except String (List ℤ)) :=
  let runes := (trimSpace username).toList
  if runes.length < liteChallengePosition then some (.error errLiteInvalid)
  else
    let seed := L.sum256 (lower L (trimSpace username))
    (drawPositions seed runes.length rounds 0 []).map fun positions =>
      .ok (positions.insertionSort (· ≤ ·))

/-! ## When the loop ends -/

variable {i rounds : ℕ} {drawn positions : List ℤ}

section Draw

variable {seed : Digest} {n : ℕ}

/-- The indices that the bytes of the hash give. -/
def residues (seed : Digest) (n : ℕ) : Finset ℤ :=
  Finset.univ.image fun j : Fin 32 => ((seed j).toNat : ℤ) % n

theorem index_mem_residues (seed : Digest) (n i : ℕ) : index seed n i ∈ residues seed n :=
  Finset.mem_image_of_mem (fun j : Fin 32 => ((seed j).toNat : ℤ) % n) (Finset.mem_univ _)

theorem exists_index_of_mem_residues {x : ℤ} (h : x ∈ residues seed n) :
    ∃ i < 32, index seed n i = x := by
  obtain ⟨j, -, rfl⟩ := Finset.mem_image.1 h
  refine ⟨j, j.isLt, ?_⟩
  rw [index, Fin.ofNat_eq_cast, Fin.cast_val_eq_self]

/-- While the loop has not ended, it holds what its rounds have drawn. -/
theorem drawn_of_drawPositions_eq_none (h : drawPositions seed n rounds i positions = none) :
    ∃ drawn : List ℤ, drawn.length < liteChallengePosition ∧ positions ⊆ drawn ∧
      ∀ k, i ≤ k → k < i + rounds → index seed n k ∈ drawn := by
  induction rounds generalizing i positions with
  | zero =>
    rw [drawPositions] at h
    split at h
    · next hlt => exact ⟨positions, hlt, List.Subset.refl _, fun k hk hk' => by omega⟩
    · cases h
  | succ rounds ih =>
    rw [drawPositions] at h
    split at h
    · split at h
      · next hmem =>
        obtain ⟨drawn, hlt, hsub, hall⟩ := ih h
        refine ⟨drawn, hlt, hsub, fun k hk hk' => ?_⟩
        rcases Nat.eq_or_lt_of_le hk with rfl | hk
        · exact hsub hmem
        · exact hall k hk (by omega)
      · obtain ⟨drawn, hlt, hsub, hall⟩ := ih h
        refine ⟨drawn, hlt, fun x hx => hsub (List.mem_append_left _ hx), fun k hk hk' => ?_⟩
        rcases Nat.eq_or_lt_of_le hk with rfl | hk
        · exact hsub (List.mem_append_right _ (List.mem_singleton_self _))
        · exact hall k hk (by omega)
    · cases h

/-- What the loop returns: the positions it began with and new ones, four together. -/
theorem of_drawPositions_eq_some (hnodup : positions.Nodup)
    (hle : positions.length ≤ liteChallengePosition) (hres : ∀ x ∈ positions, x ∈ residues seed n)
    (h : drawPositions seed n rounds i positions = some drawn) :
    drawn.Nodup ∧ drawn.length = liteChallengePosition ∧ ∀ x ∈ drawn, x ∈ residues seed n := by
  induction rounds generalizing i positions with
  | zero =>
    rw [drawPositions] at h
    split at h
    · cases h
    · cases h
      exact ⟨hnodup, by omega, hres⟩
  | succ rounds ih =>
    rw [drawPositions] at h
    split at h
    · next hlt =>
      split at h
      · exact ih hnodup hle hres h
      · next hmem =>
        refine ih ?_ ?_ ?_ h
        · exact List.nodup_append.2 ⟨hnodup, List.nodup_singleton _, fun x hx y hy => by
            rw [List.mem_singleton.1 hy]
            exact fun he => hmem (he ▸ hx)⟩
        · rw [List.length_append, List.length_singleton]
          omega
        · intro x hx
          rcases List.mem_append.1 hx with hx | hx
          · exact hres x hx
          · rw [List.mem_singleton.1 hx]
            exact index_mem_residues seed n i
    · cases h
      exact ⟨hnodup, by omega, hres⟩

theorem drawPositions_mono {rounds rounds' i : ℕ}
    (h : drawPositions seed n rounds i positions = some drawn) (hle : rounds ≤ rounds') :
    drawPositions seed n rounds' i positions = some drawn := by
  induction rounds generalizing rounds' i positions with
  | zero =>
    rw [drawPositions] at h
    split at h
    · cases h
    · next hlt =>
      cases rounds' with
      | zero | succ => rw [drawPositions, if_neg hlt, h]
  | succ rounds ih =>
    obtain ⟨rounds', rfl⟩ : ∃ k, rounds' = k + 1 := ⟨rounds' - 1, by omega⟩
    rw [drawPositions] at h ⊢
    split at h
    · next hlt =>
      rw [if_pos hlt]
      split at h
      · next hmem =>
        rw [if_pos hmem]
        exact ih h (by omega)
      · next hmem =>
        rw [if_neg hmem]
        exact ih h (by omega)
    · next hlt => rw [if_neg hlt, h]

theorem isSome_drawPositions (h : liteChallengePosition ≤ (residues seed n).card) :
    ∃ drawn, drawPositions seed n 32 0 [] = some drawn := by
  cases hdraw : drawPositions seed n 32 0 [] with
  | some drawn => exact ⟨drawn, rfl⟩
  | none =>
    obtain ⟨drawn, hlt, -, hall⟩ := drawn_of_drawPositions_eq_none hdraw
    have hsub : residues seed n ⊆ drawn.toFinset := by
      intro x hx
      obtain ⟨i, hi, rfl⟩ := exists_index_of_mem_residues hx
      exact List.mem_toFinset.2 (hall i (Nat.zero_le i) (by omega))
    have hcard : (residues seed n).card ≤ drawn.length :=
      (Finset.card_le_card hsub).trans (List.toFinset_card_le drawn)
    omega

theorem card_residues_of_drawPositions (h : drawPositions seed n rounds 0 [] = some drawn) :
    liteChallengePosition ≤ (residues seed n).card := by
  obtain ⟨hnodup, hlen, hres⟩ := of_drawPositions_eq_some List.nodup_nil (Nat.zero_le _)
    (fun x hx => absurd hx List.not_mem_nil) h
  have hsub : drawn.toFinset ⊆ residues seed n := fun x hx => hres x (List.mem_toFinset.1 hx)
  calc liteChallengePosition = drawn.toFinset.card := by
        rw [List.toFinset_card_of_nodup hnodup, hlen]
    _ ≤ (residues seed n).card := Finset.card_le_card hsub

end Draw

/-- Four distinct indices of a name of `n` characters in increasing order. -/
structure ValidPositions (n : ℕ) (positions : List ℤ) : Prop where
  length : positions.length = 4
  increasing : positions.Pairwise (· < ·)
  index : ∀ p ∈ positions, 0 ≤ p ∧ p < n

theorem validPositions_insertionSort {seed : Digest} {n rounds : ℕ} (hn : 0 < n)
    (h : drawPositions seed n rounds 0 [] = some drawn) :
    ValidPositions n (drawn.insertionSort (· ≤ ·)) := by
  obtain ⟨hnodup, hlen, hres⟩ := of_drawPositions_eq_some List.nodup_nil (Nat.zero_le _)
    (fun x hx => absurd hx List.not_mem_nil) h
  have hperm := List.perm_insertionSort (· ≤ ·) drawn
  constructor
  · rw [hperm.length_eq, hlen]
    rfl
  · have hsorted := List.pairwise_insertionSort (· ≤ ·) drawn
    have hdistinct : (drawn.insertionSort (· ≤ ·)).Pairwise (· ≠ ·) := hperm.nodup_iff.2 hnodup
    exact (hsorted.and hdistinct).imp fun h => lt_of_le_of_ne h.1 h.2
  · intro p hp
    obtain ⟨j, -, rfl⟩ := Finset.mem_image.1 (hres p (hperm.mem_iff.1 hp))
    exact ⟨Int.emod_nonneg _ (by omega), Int.emod_lt_of_pos _ (by omega)⟩

/-- For a name of at least four characters the loop ends, with four positions in order, exactly if
the bytes of the hash have four residues modulo the length of the name. -/
theorem challenge_ends_iff (username : String) (h : 4 ≤ (trimSpace username).toList.length) :
    (∃ rounds positions, challengePositions L rounds username = some (.ok positions) ∧
        ValidPositions (trimSpace username).toList.length positions) ↔
      4 ≤ (residues (L.sum256 (lower L (trimSpace username)))
        (trimSpace username).toList.length).card := by
  have hlen : ¬ (trimSpace username).toList.length < liteChallengePosition := by
    simp only [liteChallengePosition]
    omega
  constructor
  · rintro ⟨rounds, positions, hpos, -⟩
    simp only [challengePositions, if_neg hlen, Option.map_eq_some_iff] at hpos
    obtain ⟨drawn, hdraw, -⟩ := hpos
    exact card_residues_of_drawPositions hdraw
  · intro hcard
    obtain ⟨drawn, hdraw⟩ := isSome_drawPositions hcard
    refine ⟨32, drawn.insertionSort (· ≤ ·), ?_, ?_⟩
    · simp only [challengePositions, if_neg hlen, hdraw, Option.map_some]
    · exact validPositions_insertionSort (by omega) hdraw

/-- A hash given by its bytes. -/
def digest (bytes : List UInt8) : Digest := fun j => bytes.getD j 0

/-- ASCII letters and the hash of one name; every other hash is zero. -/
def nameLibrary (name : String) (bytes : List UInt8) : Library where
  crypto := .plain
  sum256 text := if text = name then digest bytes else fun _ => 0
  toLower := Char.toLower
  toUpper := Char.toUpper

/-- The SHA-256 sum of `anna`. -/
def annaBytes : List UInt8 :=
  [85, 87, 155, 85, 120, 150, 208, 206, 23, 100, 196, 127, 237, 100, 79, 155, 53, 245, 139,
    173, 98, 6, 116, 175, 35, 243, 86, 216, 14, 208, 197, 3]

theorem challenge_ends_anna :
    4 ≤ (trimSpace "anna").toList.length ∧
      ∃ rounds positions,
        challengePositions (nameLibrary "anna" annaBytes) rounds "anna" = some (.ok positions) ∧
          ValidPositions (trimSpace "anna").toList.length positions := by
  have hlen : 4 ≤ (trimSpace "anna").toList.length := by decide
  refine ⟨hlen, (challenge_ends_iff (nameLibrary "anna" annaBytes) "anna" hlen).2 ?_⟩
  decide +kernel

/-- The SHA-256 sum of `basb`: no byte is 2 modulo 4. -/
def basbBytes : List UInt8 :=
  [217, 149, 164, 28, 3, 196, 184, 31, 229, 120, 179, 160, 200, 188, 40, 37, 88, 80, 125, 225,
    28, 143, 131, 247, 45, 159, 12, 121, 40, 205, 128, 225]

/-- For the name `basb` the loop does not end. -/
theorem challenge_never_ends :
    4 ≤ (trimSpace "basb").toList.length ∧
      ∀ rounds, challengePositions (nameLibrary "basb" basbBytes) rounds "basb" = none := by
  have hlen : ¬ (trimSpace "basb").toList.length < liteChallengePosition := by decide
  refine ⟨by decide, fun rounds => ?_⟩
  have hname : lower (nameLibrary "basb" basbBytes) (trimSpace "basb") = "basb" := by decide
  have hseed : (nameLibrary "basb" basbBytes).sum256
      (lower (nameLibrary "basb" basbBytes) (trimSpace "basb")) = digest basbBytes := by
    rw [hname]
    simp only [nameLibrary, if_true]
  have hcard : (residues (digest basbBytes) (trimSpace "basb").toList.length).card <
      liteChallengePosition := by
    decide +kernel
  cases hdraw : drawPositions (digest basbBytes) (trimSpace "basb").toList.length rounds 0 [] with
  | none => simp only [challengePositions, if_neg hlen, hseed, hdraw, Option.map_none]
  | some drawn => exact absurd (card_residues_of_drawPositions hdraw) (by omega)

/-! ## The challenge -/

structure LiteChallenge where
  tokenHash : String
  positions : List ℤ
  nonce : String
  expiresAt : ℤ
  signature : String
  deriving DecidableEq

def challengePayload (challenge : LiteChallenge) : String :=
  "|".intercalate [challenge.tokenHash, ",".intercalate (challenge.positions.map toString),
    challenge.nonce, toString challenge.expiresAt]

/-- `newLiteChallenge` at the time `t`, with the encoded random bytes or the error of drawing
them. -/
def newLiteChallenge (rounds : ℕ) (t : Time) (nonce : Except String String)
    (rawToken username : String) : Option (Except String LiteChallenge) :=
  (challengePositions L rounds username).map fun positions => do
    let positions ← positions
    let nonce ← nonce
    let challenge : LiteChallenge :=
      ⟨L.crypto.hash rawToken, positions, nonce, unix (t + liteChallengeTTL), ""⟩
    return { challenge with
      signature := L.crypto.sign liteChallengePurpose (challengePayload challenge) }

/-- `fmt.Sprint` of a list of numbers. -/
def sprint (positions : List ℤ) : String := "[" ++ " ".intercalate (positions.map toString) ++ "]"

def charactersAt (runes : List Char) (positions : List ℤ) : Option (List Char) :=
  positions.mapM fun p => if p < 0 ∨ (runes.length : ℤ) ≤ p then none else runes[p.toNat]?

def validPoW (signature nonce : String) (bits : ℕ) : Bool :=
  let sum := L.sum256 (signature ++ ":" ++ trimSpace nonce)
  let remaining := bits % 8
  let mask : UInt8 := 0xff <<< UInt8.ofNat (8 - remaining)
  (List.range (bits / 8)).all (fun i => sum (Fin.ofNat 32 i) == 0) &&
    (remaining == 0 || sum (Fin.ofNat 32 (bits / 8)) &&& mask == 0)

/-- `verifyLiteChallenge` at the time `t`. -/
def verifyLiteChallenge (rounds : ℕ) (t : Time) (rawToken username answer powNonce : String)
    (challenge : LiteChallenge) : Option Bool :=
  if challenge.expiresAt < unix t ∨ challenge.tokenHash ≠ L.crypto.hash rawToken then some false
  else if challenge.signature ≠ L.crypto.sign liteChallengePurpose (challengePayload challenge) then
    some false
  else
    (challengePositions L rounds username).map fun
      | .error _ => false
      | .ok positions =>
        if sprint positions ≠ sprint challenge.positions then false
        else
          match charactersAt (lower L (trimSpace username)).toList challenge.positions with
          | none => false
          | some want =>
            if String.ofList want ≠ lower L (trimSpace answer) then false
            else validPoW L challenge.signature powNonce liteChallengePoWBits

/-! ## The honest answer -/

/-- The answer has the characters of the name at the positions, each as it stands or in lower or
upper case. -/
def Honest (username : String) (positions : List ℤ) (answer : String) : Prop :=
  List.Forall₂ (fun p c => ∃ r, (trimSpace username).toList[p.toNat]? = some r ∧
    (c = r ∨ c = L.toLower r ∨ c = L.toUpper r)) positions answer.toList

/-- Writing the character in another case does not change its lower case. -/
def CaseStable (r : Char) : Prop :=
  L.toLower (L.toLower r) = L.toLower r ∧ L.toLower (L.toUpper r) = L.toLower r

/-- Every letter case of the characters at the positions has the same lower case, and none begins or
ends with white space. -/
structure Answerable (username : String) (positions : List ℤ) : Prop where
  cases : ∀ p ∈ positions, ∀ r, (trimSpace username).toList[p.toNat]? = some r → CaseStable L r
  ends : ∀ answer, Honest L username positions answer → trimSpace answer = answer

variable {L}

theorem CaseStable.toLower_eq {c r : Char} (h : CaseStable L r)
    (hc : c = r ∨ c = L.toLower r ∨ c = L.toUpper r) : L.toLower c = L.toLower r := by
  rcases hc with rfl | rfl | rfl
  · rfl
  · exact h.1
  · exact h.2

theorem exists_of_forall₂ {α β : Type} {S : α → β → Prop} {l : List α} {l' : List β}
    (h : List.Forall₂ S l l') : ∀ b ∈ l', ∃ a ∈ l, S a b := by
  induction h with
  | nil => exact fun b hb => absurd hb List.not_mem_nil
  | cons hab _ ih =>
    refine List.forall_mem_cons.2 ⟨⟨_, List.mem_cons_self, hab⟩, fun b hb => ?_⟩
    obtain ⟨a, ha, hab⟩ := ih b hb
    exact ⟨a, List.mem_cons_of_mem _ ha, hab⟩

/-- The characters of a name at positions in it, and what is wanted as the answer. -/
theorem exists_characters {name : String}
    (hindex : ∀ p ∈ positions, 0 ≤ p ∧ p < name.toList.length) :
    ∃ rs, List.Forall₂ (fun p r => name.toList[p.toNat]? = some r) positions rs ∧
      charactersAt (lower L name).toList positions = some (rs.map L.toLower) := by
  induction positions with
  | nil => exact ⟨[], .nil, rfl⟩
  | cons p positions ih =>
    obtain ⟨hp, hindex⟩ := List.forall_mem_cons.1 hindex
    obtain ⟨rs, hrs, hwant⟩ := ih hindex
    have hlt : p.toNat < name.toList.length := by omega
    have hr := List.getElem?_eq_getElem hlt
    refine ⟨name.toList[p.toNat] :: rs, .cons hr hrs, ?_⟩
    have hlen : (lower L name).toList.length = name.toList.length := by
      rw [lower, String.toList_ofList, List.length_map]
    have hrange : ¬ (p < 0 ∨ ((lower L name).toList.length : ℤ) ≤ p) := by
      rw [hlen]
      omega
    have hat : (lower L name).toList[p.toNat]? = some (L.toLower name.toList[p.toNat]) := by
      rw [lower, String.toList_ofList, List.getElem?_map, hr]
      rfl
    rw [charactersAt] at hwant
    rw [charactersAt, List.mapM_cons, if_neg hrange, hat, hwant]
    rfl

section

variable {username answer : String} {rs : List Char}
  (hrs : List.Forall₂ (fun p r => (trimSpace username).toList[p.toNat]? = some r) positions rs)

include hrs

theorem honest_map {f : Char → Char} (hf : ∀ r, f r = r ∨ f r = L.toLower r ∨ f r = L.toUpper r) :
    Honest L username positions (String.ofList (rs.map f)) := by
  rw [Honest, String.toList_ofList, List.forall₂_map_right_iff]
  exact hrs.imp fun p r hr => ⟨r, hr, hf r⟩

theorem Honest.map_toLower (h : Honest L username positions answer)
    (hcases : ∀ r ∈ rs, CaseStable L r) : answer.toList.map L.toLower = rs.map L.toLower := by
  rw [Honest] at h
  generalize answer.toList = cs at h
  induction hrs generalizing cs with
  | nil =>
    cases h
    rfl
  | cons hr _ ih =>
    obtain ⟨hcase, hcases⟩ := List.forall_mem_cons.1 hcases
    cases h with
    | cons hc h =>
      obtain ⟨r', hr', hc⟩ := hc
      obtain rfl := Option.some.inj (hr.symm.trans hr')
      rw [List.map_cons, List.map_cons, hcase.toLower_eq hc, ih hcases _ h]

/-- What is wanted is answered in every letter case just when the characters are answerable. -/
theorem answerable_iff :
    Answerable L username positions ↔ ∀ answer, Honest L username positions answer →
      String.ofList (rs.map L.toLower) = lower L (trimSpace answer) := by
  constructor
  · rintro ⟨hcases, hends⟩ answer h
    have hlower := h.map_toLower hrs fun r hr =>
      have ⟨p, hp, hat⟩ := exists_of_forall₂ hrs r hr
      hcases p hp r hat
    rw [hends answer h, lower, hlower]
  · intro h
    have hlist : ∀ answer, Honest L username positions answer →
        rs.map L.toLower = (trimSpace answer).toList.map L.toLower := fun answer ha => by
      simpa [lower] using congrArg String.toList (h answer ha)
    have hends : ∀ answer, Honest L username positions answer → trimSpace answer = answer := by
      intro answer ha
      refine trimSpace_eq_of_length ?_
      have hlength := congrArg List.length (hlist answer ha)
      rw [List.length_map, List.length_map] at hlength
      rw [← hlength, ← hrs.length_eq, ← List.Forall₂.length_eq ha]
    refine ⟨fun p hp r hr => ?_, hends⟩
    have hmem : r ∈ rs := by
      obtain ⟨r', hr', hat⟩ := exists_of_forall₂ hrs.flip p hp
      obtain rfl := Option.some.inj (hr.symm.trans hat)
      exact hr'
    have hstable : ∀ f : Char → Char, (∀ r, f r = r ∨ f r = L.toLower r ∨ f r = L.toUpper r) →
        L.toLower (f r) = L.toLower r := by
      intro f hf
      have hanswer := honest_map hrs hf
      have heq := hlist _ hanswer
      rw [hends _ hanswer, String.toList_ofList, List.map_map, List.map_inj_left] at heq
      exact (heq r hmem).symm
    exact ⟨hstable _ fun r => .inr (.inl rfl), hstable _ fun r => .inr (.inr rfl)⟩

end

theorem challengePositions_ok {username : String}
    (h : challengePositions L rounds username = some (.ok positions)) :
    ValidPositions (trimSpace username).toList.length positions ∧
      ∀ rounds', rounds ≤ rounds' →
        challengePositions L rounds' username = some (.ok positions) := by
  simp only [challengePositions] at h ⊢
  split at h
  · cases h
  · next hlen =>
    obtain ⟨drawn, hdraw, hsort⟩ := Option.map_eq_some_iff.1 h
    cases hsort
    constructor
    · refine validPositions_insertionSort ?_ hdraw
      simp only [liteChallengePosition] at hlen
      omega
    · intro rounds' hle
      rw [if_neg hlen, drawPositions_mono hdraw hle, Option.map_some]

theorem newLiteChallenge_ok {t : Time} {nonce : Except String String} {rawToken username : String}
    {challenge : LiteChallenge}
    (h : newLiteChallenge L rounds t nonce rawToken username = some (.ok challenge)) :
    challengePositions L rounds username = some (.ok challenge.positions) ∧
      challenge.tokenHash = L.crypto.hash rawToken ∧
      challenge.signature = L.crypto.sign liteChallengePurpose (challengePayload challenge) := by
  obtain ⟨x, hx, hmade⟩ := Option.map_eq_some_iff.1 h
  obtain ⟨positions, hposition, hmade⟩ := Except.bind_eq_ok.1 hmade
  obtain ⟨bytes, -, hmade⟩ := Except.bind_eq_ok.1 hmade
  rw [hposition] at hx
  cases hmade
  exact ⟨hx, rfl, rfl⟩

variable (L)

/-- Before the challenge expires and with a proof of work, every honest answer is accepted exactly
if the challenged characters are answerable. -/
theorem honest_answer_accepted_iff (rounds : ℕ) (t t' : Time) (nonce : Except String String)
    (rawToken username powNonce : String) (challenge : LiteChallenge)
    (hnew : newLiteChallenge L rounds t nonce rawToken username = some (.ok challenge))
    (htime : unix t' ≤ challenge.expiresAt)
    (hpow : validPoW L challenge.signature powNonce liteChallengePoWBits = true)
    (rounds' : ℕ) (hrounds : rounds ≤ rounds') :
    (∀ answer, Honest L username challenge.positions answer →
      verifyLiteChallenge L rounds' t' rawToken username answer powNonce challenge = some true) ↔
    Answerable L username challenge.positions := by
  obtain ⟨hpos, htoken, hsign⟩ := newLiteChallenge_ok hnew
  obtain ⟨hvalid, hmore⟩ := challengePositions_ok hpos
  obtain ⟨rs, hrs, hwant⟩ := exists_characters (L := L) hvalid.index
  have hfirst : ¬ (challenge.expiresAt < unix t' ∨
      challenge.tokenHash ≠ L.crypto.hash rawToken) := by
    rintro (hlate | hother)
    · omega
    · exact hother htoken
  have hsecond : ¬ challenge.signature ≠
      L.crypto.sign liteChallengePurpose (challengePayload challenge) := not_not.2 hsign
  have hthird : ¬ sprint challenge.positions ≠ sprint challenge.positions := not_not.2 rfl
  rw [answerable_iff hrs]
  refine forall₂_congr fun answer _ => ?_
  rw [verifyLiteChallenge, if_neg hfirst, if_neg hsecond, hmore rounds' hrounds, Option.map_some]
  simp only [if_neg hthird, hwant, hpow]
  simp

/-- The challenge for `anna` and the token `t`. -/
def annaChallenge : LiteChallenge :=
  ⟨"#t", [0, 1, 2, 3], "n", 300, "lite-challenge-v1#t|0,1,2,3|n|300"⟩

theorem honest_answer_accepted_anna :
    newLiteChallenge (nameLibrary "anna" annaBytes) 32 0 (.ok "n") "t" "anna" =
        some (.ok annaChallenge) ∧
      verifyLiteChallenge (nameLibrary "anna" annaBytes) 32 0 "t" "anna" "ANna" "" annaChallenge =
        some true := by
  have hnew : newLiteChallenge (nameLibrary "anna" annaBytes) 32 0 (.ok "n") "t" "anna" =
      some (.ok annaChallenge) := by decide +kernel
  have hhonest : Honest (nameLibrary "anna" annaBytes) "anna" annaChallenge.positions "ANna" :=
    .cons ⟨'a', by decide, .inr (.inr rfl)⟩ (.cons ⟨'n', by decide, .inr (.inr rfl)⟩
      (.cons ⟨'n', by decide, .inl rfl⟩ (.cons ⟨'a', by decide, .inl rfl⟩ .nil)))
  have hname : (trimSpace "anna").toList = ['a', 'n', 'n', 'a'] := by decide
  refine ⟨hnew, (honest_answer_accepted_iff _ 32 0 0 (.ok "n") "t" "anna" "" annaChallenge
    hnew (by decide) (by decide +kernel) 32 le_rfl).2 ⟨fun p _ r hr => ?_, fun answer h => ?_⟩
    "ANna" hhonest⟩
  · have hmem := List.mem_of_getElem? hr
    simp only [hname, List.mem_cons, List.not_mem_nil, or_false] at hmem
    rcases hmem with rfl | rfl | rfl | rfl <;> exact ⟨rfl, rfl⟩
  · refine trimSpace_of_forall fun c hc => ?_
    obtain ⟨p, -, r, hr, hcase⟩ := exists_of_forall₂ h c hc
    have hmem := List.mem_of_getElem? hr
    simp only [hname, List.mem_cons, List.not_mem_nil, or_false] at hmem
    rcases hmem with rfl | rfl | rfl | rfl <;> rcases hcase with rfl | rfl | rfl <;> decide

/-- The SHA-256 sum of `d kim`. -/
def kimBytes : List UInt8 :=
  [28, 94, 158, 211, 52, 20, 73, 98, 144, 251, 25, 185, 113, 224, 124, 85, 26, 104, 104, 210,
    76, 100, 45, 221, 247, 102, 139, 62, 159, 181, 162, 139]

/-- The challenge for `d kim` and the token `t`: all characters but the first. -/
def kimChallenge : LiteChallenge :=
  ⟨"#t", [1, 2, 3, 4], "n", 300, "lite-challenge-v1#t|1,2,3,4|n|300"⟩

/-- The honest answer begins with a blank, which is trimmed away before the comparison. -/
theorem honest_answer_refused :
    newLiteChallenge (nameLibrary "d kim" kimBytes) 32 0 (.ok "n") "t" "d kim" =
        some (.ok kimChallenge) ∧
      validPoW (nameLibrary "d kim" kimBytes) kimChallenge.signature "" liteChallengePoWBits =
        true ∧
      Honest (nameLibrary "d kim" kimBytes) "d kim" kimChallenge.positions " kim" ∧
      verifyLiteChallenge (nameLibrary "d kim" kimBytes) 32 0 "t" "d kim" " kim" "" kimChallenge =
        some false := by
  refine ⟨by decide +kernel, by decide +kernel, ?_, by decide +kernel⟩
  exact .cons ⟨' ', by decide, .inl rfl⟩ (.cons ⟨'k', by decide, .inl rfl⟩
    (.cons ⟨'i', by decide, .inl rfl⟩ (.cons ⟨'m', by decide, .inl rfl⟩ .nil)))

end LazGate.Lite
