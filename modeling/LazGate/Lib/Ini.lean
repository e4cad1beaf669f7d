import Mathlib

/-!
# INI files

A file is a list of sections with keys; sections may have the same name, and a key that is repeated
in a section has several values.
-/

namespace Ini

/-! ## Sections -/

structure Key where
  name : String
  value : String
  /-- The values of the repetitions. -/
  shadows : List String
  deriving DecidableEq

/-- The values that are not empty, in order. -/
def Key.values (k : Key) : List String := (k.value :: k.shadows).filter (· ≠ "")

/-- A section has a key only once. -/
structure Section where
  name : String
  keys : List Key
  nodup : (keys.map Key.name).Nodup
  deriving DecidableEq

abbrev File := List Section

/-- What a section says: its name, and its keys with their values. -/
abbrev Contents := String × List (String × List String)

/-- The values of a key. -/
def Contents.values (c : Contents) (name : String) : List String :=
  ((c.2.find? fun k => k.1 == name).map Prod.snd).getD []

namespace Section

def empty (name : String) : Section := ⟨name, [], List.nodup_nil⟩

variable (s : Section) (name : String)

def find? : Option Key := s.keys.find? fun k => k.name == name

/-- The value of a key; empty if there is none. -/
def value : String := ((s.find? name).map Key.value).getD ""

/-- The keys with one more at the end. -/
def append (k : Key) (h : ∀ k' ∈ s.keys, k'.name ≠ k.name) : Section where
  name := s.name
  keys := s.keys ++ [k]
  nodup := by
    rw [List.map_append, List.nodup_append]
    refine ⟨s.nodup, List.nodup_singleton _, ?_⟩
    rintro _ ha _ hb rfl
    obtain ⟨k', hk', hname⟩ := List.mem_map.1 ha
    obtain rfl := List.mem_singleton.1 hb
    exact h k' hk' hname

/-- A change of the keys that keeps their names. -/
def mapKeys (f : Key → Key) (h : ∀ k, (f k).name = k.name) : Section where
  name := s.name
  keys := s.keys.map f
  nodup := by
    rw [List.map_map, show Key.name ∘ f = Key.name from funext h]
    exact s.nodup

/-- The section with the key, which is empty if it is new. -/
def touch : Section :=
  if h : ∀ k ∈ s.keys, k.name ≠ name then s.append ⟨name, "", []⟩ h else s

/-- Sets the first value of a key, which may be new. -/
def set (v : String) : Section :=
  if h : ∀ k ∈ s.keys, k.name ≠ name then s.append ⟨name, v, []⟩ h
  else s.mapKeys (fun k => if k.name = name then { k with value := v } else k)
    fun k => by split <;> rfl

/-- Takes out a key with all its values. -/
def delete : Section where
  name := s.name
  keys := s.keys.filter fun k => k.name ≠ name
  nodup := s.nodup.sublist (List.filter_sublist.map _)

/-- A line of the section: a new key or one more value. -/
def add (line : String × String) : Section :=
  if h : ∀ k ∈ s.keys, k.name ≠ line.1 then s.append ⟨line.1, line.2, []⟩ h
  else s.mapKeys
    (fun k => if k.name = line.1 then { k with shadows := k.shadows ++ [line.2] } else k)
    fun k => by split <;> rfl

def contents : Contents := (s.name, s.keys.map fun k => (k.name, k.values))

variable {s name}

theorem ext {s' : Section} (hname : s.name = s'.name) (hkeys : s.keys = s'.keys) : s = s' := by
  cases s
  cases s'
  cases hname
  cases hkeys
  rfl

theorem values_contents : s.contents.values name = ((s.find? name).map Key.values).getD [] := by
  rw [Contents.values, contents, List.find?_map, find?, Option.map_map]
  rfl

theorem exists_of_value_ne (h : s.value name ≠ "") :
    ∃ k, s.find? name = some k ∧ k.value = s.value name := by
  cases hfind : s.find? name with
  | none =>
    rw [value, hfind] at h
    exact absurd rfl h
  | some k => exact ⟨k, rfl, by rw [value, hfind]; rfl⟩

/-- A key that is there is not made. -/
theorem touch_of_isSome (h : (s.find? name).isSome) : s.touch name = s := by
  obtain ⟨k, hk⟩ := Option.isSome_iff_exists.1 h
  rw [touch, dif_neg]
  intro hnone
  exact hnone k (List.mem_of_find?_eq_some hk) (by simpa using List.find?_some hk)

theorem find?_touch (s : Section) (name name' : String) :
    (s.touch name).find? name' = (s.find? name').or
      (if name' = name then some ⟨name, "", []⟩ else none) := by
  rw [touch]
  split
  · rename_i hnone
    change (s.keys ++ [(⟨name, "", []⟩ : Key)]).find? (fun k => k.name == name') = _
    rw [List.find?_append, find?]
    by_cases hname : name' = name
    · simp [hname]
    · simp [hname, Ne.symm hname]
  · rename_i hsome
    by_cases hname : name' = name
    · push Not at hsome
      obtain ⟨k, hk, hkey⟩ := hsome
      have hfound : (s.find? name').isSome := List.find?_isSome.2 ⟨k, hk, by simp [hkey, hname]⟩
      obtain ⟨k', hk'⟩ := Option.isSome_iff_exists.1 hfound
      rw [hk', Option.some_or]
    · rw [if_neg hname, Option.or_none]

/-- A key that is made is one more. -/
theorem contents_touch (s : Section) (name : String) :
    (s.touch name).contents = s.contents ↔ (s.find? name).isSome := by
  constructor
  · intro h
    by_contra hnone
    rw [Option.not_isSome_iff_eq_none] at hnone
    have hnew : ∀ k ∈ s.keys, k.name ≠ name := fun k hk => by
      simpa using List.find?_eq_none.1 hnone k hk
    rw [touch, dif_pos hnew] at h
    simpa [contents, append] using congrArg (fun c : Contents => c.2.length) h
  · intro h
    rw [touch_of_isSome h]

/-- A key that is taken out and set again is the last one, with one value. -/
theorem keys_delete_set (v : String) : ((s.delete name).set name v).keys =
      s.keys.filter (fun k => k.name ≠ name) ++ [⟨name, v, []⟩] := by
  have hnew : ∀ k ∈ (s.delete name).keys, k.name ≠ name := fun k hk => by
    simpa using (List.mem_filter.1 hk).2
  rw [set, dif_pos hnew]
  rfl

theorem name_set (v : String) : (s.set name v).name = s.name := by
  rw [set]
  split <;> rfl

theorem find?_delete_set (v name' : String) : ((s.delete name).set name v).find? name' =
      if name' = name then some ⟨name, v, []⟩ else s.find? name' := by
  rw [find?, keys_delete_set, List.find?_append, List.find?_filter]
  by_cases hname : name' = name
  · have hnone : (s.keys.find? fun k =>
        decide (decide (k.name ≠ name) = true ∧ (k.name == name') = true)) = none := by
      rw [List.find?_eq_none]
      intro k _ hk
      simp only [decide_eq_true_eq, beq_iff_eq] at hk
      exact hk.1 (hk.2.trans hname)
    rw [hnone, if_pos hname]
    simp [hname]
  · have hsame : (fun k : Key =>
        decide (decide (k.name ≠ name) = true ∧ (k.name == name') = true)) =
          fun k => k.name == name' := by
      funext k
      by_cases hk : k.name = name'
      · simp [hk, hname]
      · simp [hk]
    rw [hsame, if_neg hname, find?]
    cases s.keys.find? (fun k => k.name == name') <;> simp [Ne.symm hname]

end Section

/-! ## Editing from the last to the first -/

/-- Replaces or deletes a section of a name, which has the number `index` among them. -/
def editAt (name : String) (edit : Section → Option Section) : ℕ → File → File
  | _, [] => []
  | index, s :: rest =>
    if s.name = name then
      if index = 0 then (edit s).toList ++ rest else s :: editAt name edit (index - 1) rest
    else s :: editAt name edit index rest

/-- Edits the first `count` sections of a name, beginning with the last of them. -/
def editBack (name : String) (edit : Section → Option Section) : ℕ → File → File
  | 0, file => file
  | count + 1, file => editBack name edit count (editAt name edit count file)

/-- Edits the first `count` sections of a name, beginning with the first. -/
def editFirst (name : String) (edit : Section → Option Section) : ℕ → File → File
  | _, [] => []
  | count, s :: rest =>
    if s.name = name then
      if count = 0 then s :: rest else (edit s).toList ++ editFirst name edit (count - 1) rest
    else s :: editFirst name edit count rest

variable {file : File}

section Edit

variable {name : String} {edit : Section → Option Section}

theorem editFirst_zero (file : File) : editFirst name edit 0 file = file := by
  induction file with
  | nil => rfl
  | cons s rest ih =>
    rw [editFirst]
    split
    · rfl
    · rw [ih]

/-- The section that follows the first `count` ones may be edited before them. -/
theorem editFirst_editAt (count : ℕ) (file : File) :
    editFirst name edit count (editAt name edit count file) =
      editFirst name edit (count + 1) file := by
  induction file generalizing count with
  | nil => rfl
  | cons s rest ih =>
    by_cases hs : s.name = name
    · have hsucc : editFirst name edit (count + 1) (s :: rest) =
          (edit s).toList ++ editFirst name edit count rest := by
        rw [editFirst, if_pos hs, if_neg (Nat.succ_ne_zero count), Nat.add_sub_cancel]
      rw [hsucc, editAt, if_pos hs]
      cases count with
      | zero => rw [if_pos rfl, editFirst_zero, editFirst_zero]
      | succ count =>
        rw [if_neg (Nat.succ_ne_zero count), editFirst, if_pos hs, if_neg (Nat.succ_ne_zero count),
          Nat.add_sub_cancel, ih count]
    · rw [editAt, if_neg hs, editFirst, if_neg hs, editFirst, if_neg hs, ih count]

theorem editBack_eq_editFirst (count : ℕ) (file : File) :
    editBack name edit count file = editFirst name edit count file := by
  induction count generalizing file with
  | zero => exact (editFirst_zero file).symm
  | succ count ih => rw [editBack, ih, editFirst_editAt]

theorem editFirst_of_le {count : ℕ} (h : file.countP (·.name = name) ≤ count) :
    editFirst name edit count file =
      file.flatMap fun s => if s.name = name then (edit s).toList else [s] := by
  induction file generalizing count with
  | nil => rfl
  | cons s rest ih =>
    rw [List.flatMap_cons, editFirst]
    by_cases hs : s.name = name
    · rw [List.countP_cons_of_pos (by simpa using hs)] at h
      rw [if_pos hs, if_pos hs, if_neg (by omega), ih (by omega)]
    · rw [List.countP_cons_of_neg (by simpa using hs)] at h
      rw [if_neg hs, if_neg hs, ih h, List.singleton_append]

/-- Going through the sections of a name from the last to the first edits each of them. -/
theorem editBack_all (file : File) :
    editBack name edit (file.countP (·.name = name)) file =
      file.flatMap fun s => if s.name = name then (edit s).toList else [s] := by
  rw [editBack_eq_editFirst, editFirst_of_le le_rfl]

/-- What an edit of a section leaves alone, it leaves alone in the file. -/
theorem map_editAt {β : Type} {f : Section → Section} {g : Section → β}
    (h : ∀ s, s.name = name → g (f s) = g s) (index : ℕ) (file : File) :
    (editAt name (fun s => some (f s)) index file).map g = file.map g := by
  induction file generalizing index with
  | nil => rfl
  | cons s rest ih =>
    rw [editAt]
    split
    · rename_i hs
      split
      · rw [Option.toList_some, List.singleton_append, List.map_cons, List.map_cons, h s hs]
      · rw [List.map_cons, List.map_cons, ih]
    · rw [List.map_cons, List.map_cons, ih]

/-- Editing the only section of a name that has a property. -/
theorem editAt_of_unique {p : Section → Bool} {index : ℕ} {s : Section}
    (hs : (file.filter (·.name = name))[index]? = some s) (hp : p s = true)
    (hone : file.countP (fun s => s.name = name && p s) = 1) :
    editAt name edit index file =
      file.flatMap fun s => if s.name = name ∧ p s then (edit s).toList else [s] := by
  induction file generalizing index with
  | nil => cases hs
  | cons t rest ih =>
    rw [List.flatMap_cons, editAt]
    by_cases ht : t.name = name
    · rw [List.filter_cons_of_pos (by simpa using ht)] at hs
      rw [if_pos ht]
      cases index with
      | zero =>
        obtain rfl : t = s := by simpa using hs
        have hnone : ∀ s ∈ rest, ¬ (s.name = name ∧ p s = true) := by
          rw [List.countP_cons_of_pos (by simp [ht, hp]), Nat.add_eq_right,
            List.countP_eq_zero] at hone
          simpa using hone
        have hrest : (rest.flatMap fun s =>
            if s.name = name ∧ p s = true then (edit s).toList else [s]) = rest := by
          rw [List.flatMap_congr fun s hs => if_neg (hnone s hs), List.flatMap_singleton']
        rw [if_pos rfl, if_pos ⟨ht, hp⟩, hrest]
      | succ index =>
        have hmem : s ∈ rest ∧ s.name = name := by
          have := List.mem_of_getElem? (by simpa using hs)
          simpa using List.mem_filter.1 this
        have hpt : ¬ p t = true := by
          intro hpt
          rw [List.countP_cons_of_pos (by simp [ht, hpt]), Nat.add_eq_right,
            List.countP_eq_zero] at hone
          exact hone s hmem.1 (by simp [hmem.2, hp])
        rw [List.countP_cons_of_neg (by simp [hpt])] at hone
        rw [if_neg (Nat.succ_ne_zero index), if_neg (fun h => hpt h.2), List.singleton_append,
          Nat.add_sub_cancel, ih (by simpa using hs) hone]
    · rw [List.filter_cons_of_neg (by simpa using ht)] at hs
      rw [List.countP_cons_of_neg (by simp [ht])] at hone
      rw [if_neg ht, if_neg (fun h => ht h.1), List.singleton_append, ih hs hone]

end Edit

/-! ## Texts -/

/-- What is written: the names of the sections, and the names and values of their lines. -/
abbrev Document := List (String × List (String × String))

/-- A name of letters and digits. -/
def PlainName (name : String) : Prop := name ≠ "" ∧ name.toList.all Char.isAlphanum = true

def SingleLine (v : String) : Prop := ∀ c ∈ v.toList, c ≠ '\r' ∧ c ≠ '\n' ∧ c ≠ '\x00'

def Document.Plain (D : Document) : Prop :=
  ∀ part ∈ D, PlainName part.1 ∧ ∀ line ∈ part.2, PlainName line.1 ∧ SingleLine line.2

/-- The lines of a part, with an empty one at its end. -/
def partLines (part : String × List (String × String)) : List String :=
  ("[" ++ part.1 ++ "]") :: part.2.map (fun line => line.1 ++ " = " ++ line.2) ++ [""]

def Document.text (D : Document) : String :=
  String.ofList ((D.flatMap partLines).flatMap fun line => line.toList ++ ['\n'])

/-- The section that lines make up. -/
def ofLines (name : String) (lines : List (String × String)) : Section :=
  lines.foldl Section.add (.empty name)

def defaultSection : Section := .empty "DEFAULT"

/-- What a reader makes of a text. It keeps sections, keys and repeated values in order, and reads
values on one line as they were written. What it does with other texts is left open. -/
structure Reader where
  load : String → Option File
  load_text : ∀ D : Document, D.Plain →
    load D.text = some (defaultSection :: D.map fun part => ofLines part.1 part.2)

/-! ## Sections as lines -/

/-- The lines of a key; one without a value has an empty one. -/
def Key.lines (k : Key) : List (String × String) :=
  (if k.values = [] then [""] else k.values).map fun v => (k.name, v)

/-- The key that its lines make up. -/
def Key.written (k : Key) : Key :=
  match k.values with
  | [] => ⟨k.name, "", []⟩
  | v :: vs => ⟨k.name, v, vs⟩

variable (k : Key)

@[simp] theorem Key.name_written : k.written.name = k.name := by
  unfold Key.written
  split <;> rfl

@[simp] theorem Key.values_written : k.written.values = k.values := by
  have hne : ∀ v ∈ k.values, v ≠ "" := fun v hv => by simpa using (List.mem_filter.1 hv).2
  unfold Key.written
  split
  · rename_i hnil
    rw [hnil]
    rfl
  · rename_i v vs hvs
    rw [hvs] at hne ⊢
    exact List.filter_eq_self.2 fun x hx => by simpa using hne x hx

namespace Section

variable (s : Section)

def lines : List (String × String) := s.keys.flatMap Key.lines

/-- The section that the lines make up. -/
def written : Section := s.mapKeys Key.written Key.name_written

theorem contents_written : s.written.contents = s.contents := by
  simp only [contents, written, mapKeys, List.map_map, Prod.mk.injEq, true_and]
  refine List.map_congr_left fun k _ => ?_
  simp only [Function.comp_apply, Key.name_written, Key.values_written]

variable {s}

/-- More lines of the last key. -/
theorem foldl_add_append {k : Key} {h : ∀ k' ∈ s.keys, k'.name ≠ k.name} (vs : List String) :
    (vs.map fun v => (k.name, v)).foldl add (s.append k h) =
      s.append { k with shadows := k.shadows ++ vs } h := by
  induction vs generalizing k with
  | nil => simp
  | cons v vs ih =>
    have hadd : (s.append k h).add (k.name, v) =
        s.append { k with shadows := k.shadows ++ [v] } h := by
      have hmem : ¬ ∀ k' ∈ (s.append k h).keys, k'.name ≠ k.name := fun hall =>
        hall k (List.mem_append_right _ (List.mem_singleton_self k)) rfl
      rw [add, dif_neg hmem]
      refine ext rfl ?_
      change (s.keys ++ [k]).map _ = s.keys ++ [_]
      rw [List.map_append, List.map_singleton, if_pos rfl]
      refine congrArg (· ++ _) ((List.map_congr_left fun k' hk' => ?_).trans (List.map_id _))
      exact if_neg (h k' hk')
    rw [List.map_cons, List.foldl_cons, hadd, ih (k := { k with shadows := k.shadows ++ [v] }),
      List.append_assoc]
    rfl

/-- The lines of a new key. -/
theorem foldl_add_lines (h : ∀ k' ∈ s.keys, k'.name ≠ k.written.name) :
    k.lines.foldl add s = s.append k.written h := by
  have hnew : ∀ k' ∈ s.keys, k'.name ≠ k.name := fun k' hk' => k.name_written ▸ h k' hk'
  have hfirst : ∀ v, s.add (k.name, v) = s.append ⟨k.name, v, []⟩ hnew := fun v => dif_pos hnew
  cases hvalues : k.values with
  | nil =>
    have hwritten : k.written = ⟨k.name, "", []⟩ := by rw [Key.written, hvalues]
    simp only [Key.lines, hvalues, if_true, List.map_cons, List.map_nil, List.foldl_cons,
      List.foldl_nil, hfirst, hwritten]
  | cons v vs =>
    have hwritten : k.written = ⟨k.name, v, vs⟩ := by rw [Key.written, hvalues]
    rw [Key.lines, hvalues, if_neg (List.cons_ne_nil v vs), List.map_cons, List.foldl_cons, hfirst]
    have hrest := foldl_add_append (s := s) (k := ⟨k.name, v, []⟩) (h := hnew) vs
    refine hrest.trans (ext rfl ?_)
    change s.keys ++ [_] = s.keys ++ [_]
    rw [hwritten, List.nil_append]

/-- The lines of keys that are all different and new. -/
theorem foldl_add_flatMap {ks : List Key} (hks : (ks.map Key.name).Nodup) {s : Section}
    (hnew : ∀ k ∈ ks, ∀ k' ∈ s.keys, k'.name ≠ k.name) :
    ((ks.flatMap Key.lines).foldl add s).name = s.name ∧
      ((ks.flatMap Key.lines).foldl add s).keys = s.keys ++ ks.map Key.written := by
  induction ks generalizing s with
  | nil => exact ⟨rfl, (List.append_nil _).symm⟩
  | cons k ks ih =>
    rw [List.map_cons, List.nodup_cons] at hks
    have hk : ∀ k' ∈ s.keys, k'.name ≠ k.written.name := fun k' hk' => by
      rw [k.name_written]
      exact hnew k List.mem_cons_self k' hk'
    rw [List.flatMap_cons, List.foldl_append, foldl_add_lines k hk]
    obtain ⟨hname, hkeys⟩ := ih hks.2 (s := s.append k.written hk) <| by
      intro k₁ hk₁ k' hk'
      rcases List.mem_append.1 hk' with hk' | hk'
      · exact hnew k₁ (List.mem_cons_of_mem _ hk₁) k' hk'
      · rw [List.mem_singleton.1 hk', k.name_written]
        intro heq
        exact hks.1 (heq ▸ List.mem_map_of_mem hk₁)
    refine ⟨hname, hkeys.trans ?_⟩
    change (s.keys ++ [k.written]) ++ _ = _
    rw [List.append_assoc, List.singleton_append, List.map_cons]

/-- A section comes back from its lines. -/
theorem ofLines_lines (s : Section) : ofLines s.name s.lines = s.written := by
  obtain ⟨hname, hkeys⟩ := foldl_add_flatMap s.nodup (s := .empty s.name) fun _ _ _ h =>
    absurd h List.not_mem_nil
  exact ext hname hkeys

end Section

/-- The document of some sections. -/
def document (file : File) : Document := file.map fun s => (s.name, s.lines)

/-- A file comes back from its text. -/
theorem Reader.load_document (reader : Reader) (h : (document file).Plain) :
    reader.load (document file).text = some (defaultSection :: file.map Section.written) := by
  rw [reader.load_text _ h, document, List.map_map]
  refine congrArg _ (congrArg _ (List.map_congr_left fun s _ => ?_))
  exact s.ofLines_lines

/-! ## A reader -/

/-- The sections before the current one, and the current one. -/
abbrev ReaderState := List Section × Section

/-- Reads a line: a header, a name with a value, or nothing. -/
def readLine (state : ReaderState) (line : List Char) : Option ReaderState :=
  match line with
  | [] => some state
  | '[' :: rest =>
    if rest.getLast? = some ']' then
      some (state.1 ++ [state.2], .empty (String.ofList rest.dropLast))
    else none
  | line =>
    match line.dropWhile (· ≠ ' ') with
    | ' ' :: '=' :: ' ' :: v =>
      some (state.1, state.2.add (String.ofList (line.takeWhile (· ≠ ' ')), String.ofList v))
    | _ => none

def load (text : String) : Option File :=
  ((text.toList.splitOn '\n').foldlM readLine ([], defaultSection)).map fun state =>
    state.1 ++ [state.2]

variable (state : ReaderState)

theorem readLine_header (name : String) :
    readLine state ("[" ++ name ++ "]").toList = some (state.1 ++ [state.2], .empty name) := by
  have htext : ("[" ++ name ++ "]").toList = '[' :: (name.toList ++ [']']) := by
    simp
  rw [htext, readLine]
  simp

variable {name : String}

theorem PlainName.ne (h : PlainName name) {c c' : Char} (hc : c ∈ name.toList)
    (hc' : c'.isAlphanum = false) : c ≠ c' := by
  rintro rfl
  have halnum := List.all_eq_true.1 h.2 c hc
  rw [hc'] at halnum
  cases halnum

theorem readLine_line (hname : PlainName name) (v : String) :
    readLine state (name ++ " = " ++ v).toList = some (state.1, state.2.add (name, v)) := by
  have htext : (name ++ " = " ++ v).toList = name.toList ++ ' ' :: '=' :: ' ' :: v.toList := by
    simp
  have hblank : ∀ c ∈ name.toList, (decide (c ≠ ' ')) = true := fun c hc =>
    decide_eq_true (hname.ne hc (by decide))
  rw [htext]
  cases hchars : name.toList with
  | nil => exact absurd (String.toList_eq_nil_iff.1 hchars) hname.1
  | cons c cs =>
    have hbracket : c ≠ '[' := hname.ne (by rw [hchars]; exact List.mem_cons_self) (by decide)
    rw [← hchars]
    have hdrop : (name.toList ++ ' ' :: '=' :: ' ' :: v.toList).dropWhile (· ≠ ' ') =
        ' ' :: '=' :: ' ' :: v.toList := by
      rw [List.dropWhile_append_of_pos hblank]
      rfl
    have htake : (name.toList ++ ' ' :: '=' :: ' ' :: v.toList).takeWhile (· ≠ ' ') =
        name.toList := by
      rw [List.takeWhile_append_of_pos hblank]
      simp
    rw [readLine]
    · rw [hdrop, htake]
      simp
    · rw [hchars]
      exact List.cons_ne_nil _ _
    · rw [hchars]
      rintro rest h
      exact hbracket (List.cons.inj h).1

/-- Reading the lines of a part. -/
theorem foldlM_partLines {part : String × List (String × String)}
    (hpart : ∀ line ∈ part.2, PlainName line.1) :
    ((partLines part).map String.toList).foldlM readLine state =
      some (state.1 ++ [state.2], ofLines part.1 part.2) := by
  have hlines : ∀ (lines : List (String × String)) (state : ReaderState),
      (∀ line ∈ lines, PlainName line.1) →
      ((lines.map fun line => line.1 ++ " = " ++ line.2).map String.toList).foldlM readLine state =
        some (state.1, lines.foldl Section.add state.2) := by
    intro lines
    induction lines with
    | nil => exact fun _ _ => rfl
    | cons line lines ih =>
      intro state h
      rw [List.map_cons, List.map_cons, List.foldlM_cons,
        readLine_line state (h line List.mem_cons_self) line.2, Option.bind_eq_bind,
        Option.bind_some, ih _ fun l hl => h l (List.mem_cons_of_mem _ hl)]
      rfl
  rw [partLines, List.cons_append, List.map_cons, List.map_append, List.foldlM_cons,
    readLine_header, Option.bind_eq_bind, Option.bind_some, List.foldlM_append,
    hlines part.2 _ hpart]
  rfl

theorem foldlM_document (D : Document) (hD : D.Plain) (state : ReaderState) :
    (((D.flatMap partLines).map String.toList).foldlM readLine state).map
      (fun state => state.1 ++ [state.2]) =
        some (state.1 ++ state.2 :: D.map fun part => ofLines part.1 part.2) := by
  induction D generalizing state with
  | nil => rfl
  | cons part D ih =>
    have hpart := (hD part List.mem_cons_self).2
    rw [List.flatMap_cons, List.map_append, List.foldlM_append,
      foldlM_partLines state fun line hline => (hpart line hline).1, Option.bind_eq_bind,
      Option.bind_some, ih fun part hp => hD part (List.mem_cons_of_mem _ hp)]
    rw [List.append_assoc, List.map_cons, List.singleton_append]

/-- A line has no line break. -/
theorem newline_notMem {D : Document} (hD : D.Plain) {line : String}
    (hline : line ∈ D.flatMap partLines) : '\n' ∉ line.toList := by
  obtain ⟨part, hpart, hline⟩ := List.mem_flatMap.1 hline
  obtain ⟨hname, hlines⟩ := hD part hpart
  have hplain : ∀ {name : String}, PlainName name → '\n' ∉ name.toList := fun h hmem =>
    h.ne hmem (by decide) rfl
  simp only [partLines, List.cons_append, List.mem_cons, List.mem_append, List.mem_map,
    List.not_mem_nil, or_false] at hline
  rcases hline with rfl | ⟨l, hl, rfl⟩ | rfl
  · have := hplain hname
    simp [this]
  · have hn := hplain (hlines l hl).1
    have hv : '\n' ∉ l.2.toList := fun h => ((hlines l hl).2 _ h).2.1 rfl
    simp [hn, hv]
  · simp

theorem splitOn_text {D : Document} (hD : D.Plain) :
    D.text.toList.splitOn '\n' = (D.flatMap partLines).map String.toList ++ [[]] := by
  have hjoin : ∀ lines : List String, (lines.flatMap fun line => line.toList ++ ['\n']) =
      ['\n'].intercalate (lines.map String.toList ++ [[]]) := by
    intro lines
    induction lines with
    | nil => rfl
    | cons line lines ih =>
      rw [List.flatMap_cons, ih]
      cases lines <;> simp [List.intercalate]
  rw [Document.text, String.toList_ofList, hjoin]
  refine List.splitOn_intercalate '\n' ?_ (by simp)
  intro l hl
  rcases List.mem_append.1 hl with hl | hl
  · obtain ⟨line, hline, rfl⟩ := List.mem_map.1 hl
    exact newline_notMem hD hline
  · rw [List.mem_singleton.1 hl]
    exact List.not_mem_nil

/-- A reader of the lines that are written. -/
def lineReader : Reader where
  load := load
  load_text D hD := by
    have hdoc := foldlM_document D hD ([], defaultSection)
    rw [load, splitOn_text hD, List.foldlM_append]
    cases hread : ((D.flatMap partLines).map String.toList).foldlM readLine
        ([], defaultSection) with
    | none =>
      rw [hread] at hdoc
      cases hdoc
    | some state =>
      rw [hread] at hdoc
      exact hdoc

end Ini
