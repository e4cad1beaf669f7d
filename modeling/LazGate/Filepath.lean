import Mathlib

/-!
# File names

Go's `path/filepath` on a system whose separator is the slash.
-/

namespace LazGate.Filepath

def parts (name : String) : List (List Char) := name.toList.splitOn '/'

/-- `filepath.IsAbs`. -/
def isAbs (name : String) : Bool := name.toList.head? == some '/'

/-- The parts kept so far, the last one first, after one part more. -/
def enter (rooted : Bool) (kept : List (List Char)) (part : List Char) : List (List Char) :=
  if part = [] ∨ part = ['.'] then kept
  else if part = ['.', '.'] then
    match kept with
    | [] => if rooted then [] else [part]
    | last :: before => if last = ['.', '.'] then part :: kept else before
  else part :: kept

/-- The parts of the name that `filepath.Clean` keeps. -/
def cleanParts (name : String) : List (List Char) :=
  ((parts name).foldl (enter (isAbs name)) []).reverse

/-- The absolute name with these parts. -/
def absolute (l : List (List Char)) : String := String.ofList ('/' :: ['/'].intercalate l)

/-- `filepath.Clean`. -/
def clean (name : String) : String :=
  if isAbs name then absolute (cleanParts name)
  else if cleanParts name = [] then "."
  else String.ofList (['/'].intercalate (cleanParts name))

/-- `filepath.Join` of two names. -/
def join (a b : String) : String :=
  if a = "" then (if b = "" then "" else clean b) else clean (a ++ "/" ++ b)

/-- `filepath.Dir`. -/
def dir (name : String) : String := clean (String.ofList (name.toList.rdropWhile (· ≠ '/')))

/-- `filepath.Base`. -/
def base (name : String) : String :=
  if name = "" then "."
  else match name.toList.rdropWhile (· = '/') with
    | [] => "/"
    | l => String.ofList (l.rtakeWhile (· ≠ '/'))

def commonLength : List (List Char) → List (List Char) → ℕ
  | a :: l, b :: l' => if a = b then commonLength l l' + 1 else 0
  | _, _ => 0

/-- `filepath.Rel` for an absolute `root`: a relative target is refused. -/
def rel (root target : String) : Option String :=
  if isAbs target then
    let n := commonLength (cleanParts root) (cleanParts target)
    if cleanParts root = cleanParts target then some "."
    else some (String.ofList (['/'].intercalate
      (List.replicate ((cleanParts root).length - n) ['.', '.'] ++ (cleanParts target).drop n)))
  else none

example : clean "/var//lib/./a/../b/" = "/var/lib/b" := by decide +kernel
example : dir "/var/lib/b" = "/var/lib" ∧ base "/var/lib/b" = "b" := by decide +kernel
example : rel "/var/lib" "/var/tmp/a" = some "../tmp/a" := by decide +kernel

/-! ## One part below a clean absolute name -/

structure Plain (part : List Char) : Prop where
  slash : '/' ∉ part
  nonempty : part ≠ []
  dot : part ≠ ['.']
  dots : part ≠ ['.', '.']

variable {l : List (List Char)}

theorem foldl_enter (rooted : Bool) (hl : ∀ part ∈ l, Plain part) (kept : List (List Char)) :
    l.foldl (enter rooted) kept = l.reverse ++ kept := by
  induction l generalizing kept with
  | nil => rfl
  | cons part rest ih =>
    have hpart := hl part List.mem_cons_self
    have henter : enter rooted kept part = part :: kept := by
      simp [enter, hpart.nonempty, hpart.dot, hpart.dots]
    rw [List.foldl_cons, henter, ih fun p hp => hl p (List.mem_cons_of_mem _ hp)]
    simp

@[simp] theorem isAbs_absolute (l : List (List Char)) : isAbs (absolute l) = true := by
  simp [isAbs, absolute]

theorem parts_absolute (hl : ∀ part ∈ l, '/' ∉ part) (hne : l ≠ []) :
    parts (absolute l) = [] :: l := by
  have hcons : '/' :: ['/'].intercalate l = ['/'].intercalate ([] :: l) := by
    obtain ⟨a, l, rfl⟩ := List.exists_cons_of_ne_nil hne
    simp [List.intercalate]
  rw [parts, absolute, String.toList_ofList, hcons]
  refine List.splitOn_intercalate _ ?_ (by simp)
  intro part hpart
  rcases List.mem_cons.1 hpart with rfl | hpart
  · simp
  · exact hl part hpart

theorem clean_absolute (hl : ∀ part ∈ l, Plain part) (hne : l ≠ []) :
    clean (absolute l) = absolute l := by
  rw [clean, if_pos (isAbs_absolute l), cleanParts,
    parts_absolute (fun p hp => (hl p hp).slash) hne, List.foldl_cons, foldl_enter _ hl]
  simp [enter]

theorem clean_absolute_slash (hl : ∀ part ∈ l, Plain part) :
    clean (absolute (l ++ [[]])) = absolute l := by
  have hslash : ∀ part ∈ l ++ [[]], '/' ∉ part := by
    intro part hpart
    rcases List.mem_append.1 hpart with hpart | hpart
    · exact (hl part hpart).slash
    · simp [List.mem_singleton.1 hpart]
  rw [clean, if_pos (isAbs_absolute _), cleanParts, parts_absolute hslash (by simp),
    List.foldl_cons, List.foldl_append, foldl_enter _ hl]
  simp [enter]

theorem absolute_append (hne : l ≠ []) (part : List Char) :
    absolute (l ++ [part]) = String.ofList ((absolute l).toList ++ '/' :: part) := by
  rw [absolute, absolute, String.toList_ofList, List.cons_append]
  congr 2
  induction l with
  | nil => exact absurd rfl hne
  | cons a l ih =>
    cases l with
    | nil => simp [List.intercalate]
    | cons b l =>
      have := ih (by simp)
      simp only [List.intercalate, List.cons_append, List.intersperse_cons_cons,
        List.flatten_cons, List.nil_append, List.append_assoc] at this ⊢
      rw [this]

section Below

variable {l : List (List Char)} {part : List Char}

theorem join_absolute (hl : ∀ p ∈ l, Plain p) (hne : l ≠ []) (hpart : Plain part) :
    join (absolute l) (String.ofList part) = absolute (l ++ [part]) := by
  have happ : absolute l ++ "/" ++ String.ofList part = absolute (l ++ [part]) := by
    apply String.toList_injective
    rw [absolute_append hne]
    simp
  have hne' : absolute l ≠ "" := by
    intro h
    simpa [absolute] using congrArg String.toList h
  rw [join, if_neg hne', happ]
  refine clean_absolute (fun p hp => ?_) (by simp)
  rcases List.mem_append.1 hp with hp | hp
  · exact hl p hp
  · rwa [List.mem_singleton.1 hp]

theorem Plain.forall_reverse (hpart : Plain part) :
    ∀ c ∈ part.reverse, decide (c ≠ '/') = true := by
  intro c hc
  have := ne_of_mem_of_not_mem (List.mem_reverse.1 hc) hpart.slash
  simpa using this

theorem dir_absolute_append (hl : ∀ p ∈ l, Plain p) (hne : l ≠ []) (hpart : Plain part) :
    dir (absolute (l ++ [part])) = absolute l := by
  have hdrop : ((absolute l).toList ++ '/' :: part).rdropWhile (· ≠ '/') =
      (absolute l).toList ++ ['/'] := by
    rw [List.rdropWhile, List.reverse_append, List.reverse_cons, List.append_assoc,
      List.dropWhile_append_of_pos hpart.forall_reverse]
    simp
  rw [dir, absolute_append hne, String.toList_ofList, hdrop, ← absolute_append hne]
  exact clean_absolute_slash hl

theorem base_absolute_append (hne : l ≠ []) (hpart : Plain part) :
    base (absolute (l ++ [part])) = String.ofList part := by
  have hdrop : ((absolute l).toList ++ '/' :: part).rdropWhile (· = '/') =
      (absolute l).toList ++ '/' :: part := by
    rw [List.rdropWhile_eq_self_iff]
    intro _
    have hlast : part.getLast hpart.nonempty ≠ '/' :=
      ne_of_mem_of_not_mem (List.getLast_mem _) hpart.slash
    simpa [List.getLast_cons hpart.nonempty] using hlast
  have htake : ((absolute l).toList ++ '/' :: part).rtakeWhile (· ≠ '/') = part := by
    rw [List.rtakeWhile, List.reverse_append, List.reverse_cons, List.append_assoc,
      List.takeWhile_append_of_pos hpart.forall_reverse]
    simp
  have hne' : absolute (l ++ [part]) ≠ "" := by
    intro h
    simpa [absolute] using congrArg String.toList h
  obtain ⟨c, cs, hcs⟩ := List.exists_cons_of_ne_nil
    (show (absolute l).toList ++ '/' :: part ≠ [] by simp)
  rw [base, if_neg hne', absolute_append hne, String.toList_ofList, hdrop, hcs]
  rw [hcs] at htake
  exact congrArg String.ofList htake

end Below

end LazGate.Filepath
