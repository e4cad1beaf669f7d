import LazGate.Hysteria.Files
import LazGate.Lib.Table

/-!
# Archives of masquerade files

Package `hy2files`: `ReadArchive` over a ZIP library, with the limits on the number and the size of
the files and the number of expanded bytes that it reads. A reader may give any entries; what it
declares about the size of an entry need not be what it reads.
-/

namespace LazGate.Hy2files

open Hysteria (maxArchiveBytes)

/-! ## Files -/

def maxFiles : ℕ := 128
def maxDirectories : ℕ := 256
def maxExpandedBytes : ℕ := 8 * 2 ^ 20
def maxFileBytes : ℕ := 4 * 2 ^ 20

structure File where
  path : String
  data : List UInt8
  deriving DecidableEq

/-- `fs.ValidPath`. -/
def fsValidPath (name : String) : Bool :=
  name == "." || (Filepath.parts name).all fun p => p ≠ [] ∧ p ≠ ['.'] ∧ p ≠ ['.', '.']

/-- `unicode.IsControl`. -/
def isControl (c : Char) : Bool := c.toNat < 0x20 || (0x7f ≤ c.toNat && c.toNat < 0xa0)

/-- `ValidPath`, for a name that is UTF-8. -/
def validPath (name : String) : Bool :=
  name.utf8ByteSize ≤ 240 && fsValidPath name && name != "." &&
    name.toList.all fun c => c != '\\' && c != ':' && !isControl c

def totalSize (files : List File) : ℕ := (files.map (·.data.length)).sum

/-- The limits on the files of a set. -/
structure Bounded (files : List File) : Prop where
  few : files.length ≤ maxFiles
  nodup : (files.map File.path).Nodup
  valid : ∀ f ∈ files, validPath f.path = true
  small : ∀ f ∈ files, f.data.length ≤ maxFileBytes
  total : totalSize files ≤ maxExpandedBytes

theorem Bounded.nil : Bounded [] := ⟨by decide, List.nodup_nil, by simp, by simp, by decide⟩

theorem totalSize_append (files : List File) (f : File) :
    totalSize (files ++ [f]) = totalSize files + f.data.length := by
  simp [totalSize]

theorem Bounded.append {files : List File} (h : Bounded files) {f : File}
    (hfew : files.length < maxFiles) (hnew : f.path ∉ files.map File.path)
    (hvalid : validPath f.path = true) (hsmall : f.data.length ≤ maxFileBytes)
    (htotal : totalSize files + f.data.length ≤ maxExpandedBytes) : Bounded (files ++ [f]) where
  few := by simpa using hfew
  nodup := by
    rw [List.map_append]
    exact h.nodup.append (List.nodup_singleton _) (by simpa using hnew)
  valid g hg := by
    rcases List.mem_append.1 hg with hg | hg
    · exact h.valid g hg
    · exact List.mem_singleton.1 hg ▸ hvalid
  small g hg := by
    rcases List.mem_append.1 hg with hg | hg
    · exact h.small g hg
    · exact List.mem_singleton.1 hg ▸ hsmall
  total := by rwa [totalSize_append]

/-! ## Reading -/

inductive Mode where
  | dir
  | regular
  | irregular

/-- What `Open` gives: the bytes, and whether reading on after them or closing fails. -/
structure Stream where
  data : List UInt8
  readFails : Bool
  closeFails : Bool

/-- An entry of an archive, as the library shows it; a name may be no UTF-8, and `Open` may
fail. -/
structure Entry where
  name : Option String
  mode : Mode
  uncompressedSize64 : UInt64
  content : Option Stream

/-- The variables of the loop of `ReadArchive`. -/
structure Reading where
  files : List File
  total : ℤ
  names : List String

/-- `strings.TrimSuffix` with a slash. -/
def trimSlash (name : String) : String :=
  if name.toList.getLast? = some '/' then String.ofList name.toList.dropLast else name

/-- One regular file: the result, and the bytes read. `io.LimitReader` ends before an error that
comes after its last byte. -/
def readFile (s : Reading) (name : String) (r : Stream) : Except String Reading × ℕ :=
  let data := r.data.take (maxFileBytes + 1)
  let total := s.total + data.length
  if (r.readFails ∧ r.data.length < maxFileBytes + 1) ∨ r.closeFails ∨
      maxFileBytes < data.length then
    (.error "Повреждённый или слишком большой файл ZIP", data.length)
  else if maxExpandedBytes < total then (.error "Размер файлов превышает 8 МиБ", data.length)
  else (.ok { s with files := s.files ++ [⟨name, data⟩], total := total }, data.length)

/-- The body of the loop. -/
def readEntry (s : Reading) (e : Entry) : Except String Reading × ℕ :=
  match e.name.map trimSlash with
  | none => (.error "Недопустимый или повторяющийся путь: ", 0)
  | some name =>
    if !validPath name || s.names.contains name then
      (.error ("Недопустимый или повторяющийся путь: " ++ name), 0)
    else
      let s := { s with names := name :: s.names }
      match e.mode with
      | .dir => (.ok s, 0)
      | .irregular => (.error ("Разрешены только обычные файлы: " ++ name), 0)
      | .regular =>
        if maxFiles ≤ s.files.length ∨ maxFileBytes < e.uncompressedSize64.toNat ∨
            UInt64.ofInt (maxExpandedBytes - s.total) < e.uncompressedSize64 then
          (.error "Превышен лимит количества или размера файлов", 0)
        else
          match e.content with
          | none => (.error "Не удалось прочитать ZIP", 0)
          | some r => readFile s name r

def readEntries : Reading → List Entry → Except String (List File) × ℕ
  | s, [] => (.ok s.files, 0)
  | s, e :: es =>
    match readEntry s e with
    | (.error message, n) => (.error message, n)
    | (.ok s', n) => ((readEntries s' es).1, n + (readEntries s' es).2)

/-- The ZIP library over byte strings `B`. `written` is the length of the output after these files
were written one after the other. -/
structure Zip (B : Type) where
  len : B → ℕ
  newReader : B → Option (List Entry)
  written : List File → Except String ℕ
  close : List File → Except String B

variable {B : Type}

/-- `ReadArchive`, with the number of expanded bytes that it reads. -/
def readArchive (zip : Zip B) (raw : B) : Except String (List File) × ℕ :=
  if maxArchiveBytes < zip.len raw then (.error "ZIP превышает 2 МиБ", 0)
  else
    match zip.newReader raw with
    | none => (.error "Некорректный ZIP-архив", 0)
    | some entries =>
      if maxFiles + maxDirectories < entries.length then
        (.error "В архиве слишком много записей", 0)
      else readEntries ⟨[], 0, []⟩ entries

theorem of_error {α : Type} {message : String} {n bound : ℕ} {P : α → Prop} (h : n ≤ bound) :
    n ≤ bound ∧ ∀ a, (Except.error message : Except String α) = .ok a → P a :=
  ⟨h, fun _ ha => nomatch ha⟩

/-- What holds between two entries. -/
structure Reading.Good (s : Reading) : Prop where
  bounded : Bounded s.files
  known : ∀ f ∈ s.files, f.path ∈ s.names
  total : s.total = totalSize s.files

variable {s : Reading}

theorem readFile_good (h : s.Good) {name : String} {r : Stream} (hfew : s.files.length < maxFiles)
    (hvalid : validPath name = true)
    (hnew : ∀ f ∈ s.files, f.path ≠ name) (hname : name ∈ s.names) :
    (readFile s name r).2 ≤ maxFileBytes + 1 ∧ ∀ s', (readFile s name r).1 = .ok s' →
      s'.Good ∧ s'.total = s.total + (readFile s name r).2 := by
  have hlen : (r.data.take (maxFileBytes + 1)).length ≤ maxFileBytes + 1 := List.length_take_le _ _
  unfold readFile
  dsimp only
  split
  · exact of_error hlen
  rename_i hread
  split
  · exact of_error hlen
  rename_i htotal
  refine ⟨hlen, fun s' hs => ?_⟩
  cases hs
  have hsum := h.total
  refine ⟨⟨h.bounded.append hfew ?_ hvalid ?_ ?_, ?_, ?_⟩, rfl⟩
  · simpa using hnew
  · exact Nat.le_of_not_lt fun hlt => hread (.inr (.inr hlt))
  · dsimp only
    omega
  · intro f hf
    rcases List.mem_append.1 hf with hf | hf
    · exact h.known f hf
    · rw [List.mem_singleton.1 hf]
      exact hname
  · rw [totalSize_append]
    push_cast
    rw [hsum]

/-- One entry: it reads at most one byte more than a file may have, and what it takes is counted. -/
theorem readEntry_good (h : s.Good) (e : Entry) :
    (readEntry s e).2 ≤ maxFileBytes + 1 ∧ ∀ s', (readEntry s e).1 = .ok s' →
      s'.Good ∧ s'.total = s.total + (readEntry s e).2 := by
  unfold readEntry
  split
  · exact of_error (Nat.zero_le _)
  rename_i name _
  split
  · exact of_error (Nat.zero_le _)
  rename_i hpath
  simp only [Bool.or_eq_true, Bool.not_eq_true', not_or, Bool.not_eq_false,
    List.contains_iff_mem] at hpath
  have hgood : Reading.Good { s with names := name :: s.names } :=
    ⟨h.bounded, fun f hf => List.mem_cons_of_mem _ (h.known f hf), h.total⟩
  dsimp only
  split
  · refine ⟨Nat.zero_le _, fun s' hs => ?_⟩
    cases hs
    exact ⟨hgood, by simp⟩
  · exact of_error (Nat.zero_le _)
  · split
    · exact of_error (Nat.zero_le _)
    rename_i hlimit
    split
    · exact of_error (Nat.zero_le _)
    · refine readFile_good hgood ?_ hpath.1 ?_ List.mem_cons_self
      · exact Nat.lt_of_not_le fun hle => hlimit (.inl hle)
      · exact fun f hf heq => hpath.2 (heq ▸ h.known f hf)

theorem readEntries_bounded (h : s.Good) (es : List Entry) :
    s.total + (readEntries s es).2 ≤ maxExpandedBytes + maxFileBytes + 1 ∧
      ∀ files, (readEntries s es).1 = .ok files → Bounded files := by
  induction es generalizing s with
  | nil =>
    have htotal := h.bounded.total
    have hsum := h.total
    refine ⟨?_, fun files hfiles => ?_⟩
    · simp only [readEntries]
      omega
    · exact Except.ok.inj hfiles ▸ h.bounded
  | cons e es ih =>
    obtain ⟨hread, hnext⟩ := readEntry_good h e
    have htotal := h.bounded.total
    have hsum := h.total
    unfold readEntries
    split
    · rename_i message n heq
      rw [heq] at hread
      dsimp only at hread
      refine ⟨?_, fun _ hfiles => nomatch hfiles⟩
      dsimp only
      omega
    · rename_i s' n heq
      rw [heq] at hnext
      obtain ⟨hgood, hcount⟩ := hnext s' rfl
      obtain ⟨hle, hfiles⟩ := ih hgood
      refine ⟨?_, hfiles⟩
      dsimp only at hcount ⊢
      push_cast
      omega

/-- Whatever the library reads, at most 12 MiB and one byte are expanded, and the files that are
returned keep the limits. -/
theorem readArchive_bounded (zip : Zip B) (raw : B) :
    (readArchive zip raw).2 ≤ 12 * 2 ^ 20 + 1 ∧
      ∀ files, (readArchive zip raw).1 = .ok files →
        files.length ≤ 128 ∧ (files.map File.path).Nodup ∧
          (∀ f ∈ files, validPath f.path = true ∧ f.data.length ≤ 4 * 2 ^ 20) ∧
          (files.map (·.data.length)).sum ≤ 8 * 2 ^ 20 := by
  have hstart : Reading.Good ⟨[], 0, []⟩ := ⟨Bounded.nil, by simp, rfl⟩
  unfold readArchive
  split
  · exact of_error (Nat.zero_le _)
  split
  · exact of_error (Nat.zero_le _)
  rename_i entries _
  split
  · exact of_error (Nat.zero_le _)
  obtain ⟨hle, hfiles⟩ := readEntries_bounded hstart entries
  refine ⟨?_, fun files hok => ?_⟩
  · simp only [maxExpandedBytes, maxFileBytes] at hle
    omega
  · have h := hfiles files hok
    exact ⟨h.few, h.nodup, fun f hf => ⟨h.valid f hf, h.small f hf⟩, h.total⟩

end LazGate.Hy2files
