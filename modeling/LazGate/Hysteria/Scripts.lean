import LazGate.Lib.Replace
import LazGate.Lib.Shell
import LazGate.Text

/-!
# Texts of the Hysteria installer

Messages without secrets and quoted words of the scripts.
-/

namespace LazGate.Provisioning

open Replace

/-! ## `shellQuote` -/

def shellQuote (s : String) : String :=
  if s = "" then "\x27\x27"
  else String.ofList ("\x27".toList ++
    replaceAll ['\x27'] "\x27\x22\x27\x22\x27".toList 0 s.toList ++ "\x27".toList)

example : shellQuote "it's" = "'it'\"'\"'s'" := by decide

theorem toList_shellQuote (s : String) : (shellQuote s).toList = Shell.singleQuoted s.toList := by
  unfold shellQuote
  split
  · rename_i hs
    subst hs
    rfl
  · rw [replaceAll_singleton]
    simp [Shell.singleQuoted]

/-- Where a word may begin or go on, `shellQuote s` is read as the characters of `s`, each standing
for itself. Between two words it is one token. -/
theorem shellQuote_is_one_word (s : String) (st : Shell.State) (hmode : st.mode = .plain) :
    Shell.scan st (shellQuote s).toList =
        { st with current := some (st.current.getD [] ++ s.toList.map .quoted) } ∧
      (st.current = none →
        (Shell.scan st (shellQuote s).toList).flush =
            { st with tokens := st.tokens ++ [.word (s.toList.map .quoted)] } ∧
          ∀ c rest, Shell.isBlank c = true ∨ Shell.isOperator c = true →
            Shell.scan st ((shellQuote s).toList ++ c :: rest) =
              Shell.scan { st with tokens := st.tokens ++ [.word (s.toList.map .quoted)] }
                (c :: rest)) := by
  have hscan := Shell.scan_singleQuoted hmode s.toList
  rw [toList_shellQuote]
  have hflush (hnone : st.current = none) : (Shell.scan st (Shell.singleQuoted s.toList)).flush =
      { st with tokens := st.tokens ++ [.word (s.toList.map .quoted)] } := by
    rw [hscan]
    simp [Shell.State.flush, Shell.State.extend, hnone, hmode]
  have hplain : (Shell.scan st (Shell.singleQuoted s.toList)).mode = .plain := by
    rw [hscan]
    rfl
  refine ⟨by rw [hscan, Shell.State.extend, ← hmode], fun hnone => ⟨hflush hnone, ?_⟩⟩
  intro c rest hc
  rw [Shell.scan_append, Shell.scan, List.foldl_cons, ← Shell.step_flush hplain hc, hflush hnone]
  rfl

theorem shellQuote_is_one_word_home :
    (Shell.scan ⟨.plain, none, []⟩ (shellQuote "it's $HOME").toList).current =
      some ("it's $HOME".toList.map .quoted) := by
  rw [(shellQuote_is_one_word "it's $HOME" ⟨.plain, none, []⟩ rfl).1]
  rfl

/-! ## `sanitize` -/

/-- One secret in a message is replaced. -/
def redactSecret (value secret : String) : String :=
  if trimSpace secret = "" then value
  else String.ofList (replaceAll secret.toList "[redacted]".toList 0 value.toList)

/-- `sanitize`, for the secrets of the runner. -/
def Runner.sanitize (secrets : List String) (value : String) : String :=
  secrets.foldl redactSecret (trimSpace value)

/-- A secret that is long enough and does not overlap what it is replaced with. -/
structure IsSecret (secret : String) : Prop where
  long : 16 ≤ (trimSpace secret).toList.length
  apart : Apart (trimSpace secret).toList "[redacted]".toList

section

variable {secret : String} (hs : IsSecret secret)

include hs

theorem IsSecret.ne_nil : (trimSpace secret).toList ≠ [] := by
  have hlong := hs.long
  intro hnil
  simp [hnil] at hlong

theorem IsSecret.redactSecret_eq (value : String) : (redactSecret value secret).toList =
    replaceAll secret.toList "[redacted]".toList 0 value.toList := by
  rw [redactSecret, if_neg fun he => hs.ne_nil (by rw [he]; rfl), String.toList_ofList]

/-- The white space around a secret does not overlap what it is replaced with either. -/
theorem IsSecret.apart_toList : Apart secret.toList "[redacted]".toList := by
  have hspace : ∀ c, isSpace c = true → c ∉ "[redacted]".toList := by
    intro c hc hmem
    have hletters : "[redacted]".toList.all (fun c => !isSpace c) = true := by decide
    simpa [hc] using List.all_eq_true.1 hletters c hmem
  have hback : secret.toList.dropWhile isSpace = (trimSpace secret).toList ++
      ((secret.toList.dropWhile isSpace).reverse.takeWhile isSpace).reverse := by
    rw [trimSpace, String.toList_ofList, List.rdropWhile, ← List.reverse_append,
      List.takeWhile_append_dropWhile, List.reverse_reverse]
  rw [← List.takeWhile_append_dropWhile (p := isSpace) (l := secret.toList), hback]
  refine hs.apart.around_append (fun c hc => hspace c (List.mem_takeWhile_imp hc)) fun c hc => ?_
  exact hspace c (List.mem_takeWhile_imp (List.mem_reverse.1 hc))

end

def cutEach (ps : List (List Char)) (secret : String) : List (List Char) :=
  ps.flatMap (pieces secret.toList 0)

/-- What is left of a text that is cut wherever the secrets are found, one after the other and each
with the white space around it. -/
def cutAll (secrets : List String) (text : String) : List (List Char) :=
  secrets.foldl cutEach [text.toList]

theorem foldl_redactSecret {secrets : List String} (hsecrets : ∀ s ∈ secrets, IsSecret s)
    (value : String) {ps : List (List Char)} (hps : ps ≠ [])
    (hvalue : value.toList = "[redacted]".toList.intercalate ps) :
    secrets.foldl cutEach ps ≠ [] ∧ (secrets.foldl redactSecret value).toList =
      "[redacted]".toList.intercalate (secrets.foldl cutEach ps) := by
  induction secrets generalizing value ps with
  | nil => exact ⟨hps, hvalue⟩
  | cons s secrets ih =>
    obtain ⟨hs, hsecrets⟩ := List.forall_mem_cons.1 hsecrets
    refine ih hsecrets _ ?_ ?_
    · obtain ⟨p, ps, rfl⟩ := List.exists_cons_of_ne_nil hps
      rw [cutEach, List.flatMap_cons]
      exact List.append_ne_nil_of_left_ne_nil (pieces_ne_nil s.toList 0 p) _
    · rw [hs.redactSecret_eq, hvalue, hs.apart_toList.replaceAll_intercalate hps, cutEach]

/-- A message holds no secret after `sanitize` just when none is left in the trimmed message where
the secrets are cut out of it. -/
theorem sanitize_hides_secrets_iff (message : String) (secrets : List String)
    (hsecrets : ∀ s ∈ secrets, IsSecret s) :
    (∀ s ∈ secrets, ¬ (trimSpace s).toList <:+: (Runner.sanitize secrets message).toList) ↔
      ∀ s ∈ secrets, ∀ p ∈ cutAll secrets (trimSpace message), ¬ (trimSpace s).toList <:+: p := by
  obtain ⟨hne, hcut⟩ := foldl_redactSecret hsecrets (trimSpace message)
    (List.cons_ne_nil (trimSpace message).toList []) (by simp [List.intercalate])
  refine forall₂_congr fun s hs => ?_
  rw [Runner.sanitize, hcut, (hsecrets s hs).apart.infix_intercalate_iff hne]
  simp [cutAll]

theorem isSecret_keys (s : String) (h : (trimSpace s).toList = List.replicate 16 'K') :
    IsSecret s := by
  refine ⟨by simp [h], ?_⟩
  rw [h]
  refine .of_forall (by simp) (by decide) fun c hc => ?_
  rw [List.eq_of_mem_replicate hc]
  decide

theorem sanitize_hides_secrets_key :
    ¬ (trimSpace "KKKKKKKKKKKKKKKK\n").toList <:+:
      (Runner.sanitize ["KKKKKKKKKKKKKKKK\n"] "\nKKKKKKKKKKKKKKKK\n.").toList :=
  (sanitize_hides_secrets_iff _ _ (by simpa using isSecret_keys _ (by decide))).2
    (by decide +kernel) _ (.head _)

/-- The line break at the end of a secret is trimmed off the message, and the secret is not found
in it. -/
theorem sanitize_keeps_secret :
    IsSecret "KKKKKKKKKKKKKKKK\n" ∧
      Runner.sanitize ["KKKKKKKKKKKKKKKK\n"] "key: KKKKKKKKKKKKKKKK\n" = "key: KKKKKKKKKKKKKKKK" :=
  ⟨isSecret_keys _ (by decide), by decide⟩

end LazGate.Provisioning
