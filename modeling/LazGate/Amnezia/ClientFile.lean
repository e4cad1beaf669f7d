import LazGate.Amnezia.NodeConfig

/-!
# What a client's file says

A reader splits the file into lines and reads `key = value` under the section headers. For every
configuration that `RenderClientConf` accepts, it finds what was configured and nothing else, as
long as the header protection key is on one line: base64 decoding skips line breaks, and the key
is written as it is.
-/

namespace LazGate.NativeAWG

open Awgconfig

variable (L : Library)

/-! ## Reading a client's file -/

structure Entry where
  header : String
  key : String
  value : String
  deriving DecidableEq

/-- What a reader finds in a file: the section headers and the values, in order. -/
structure File where
  sections : List String
  entries : List Entry
  deriving DecidableEq

def sectionName (line : List Char) : Option (List Char) :=
  match line with
  | '[' :: rest => if rest.getLast? = some ']' then some rest.dropLast else none
  | _ => none

/-- The texts before and after the first ` = `. -/
def splitAssign : List Char → Option (List Char × List Char)
  | [] => none
  | ' ' :: '=' :: ' ' :: rest => some ([], rest)
  | c :: rest => (splitAssign rest).map fun (key, value) => (c :: key, value)

/-- The lines from here on, in the section `current`; a line that is neither empty, a section
header nor `key = value` cannot be read. -/
def readLines : String → List (List Char) → Option File
  | _, [] => some ⟨[], []⟩
  | current, line :: rest =>
    if line = [] then readLines current rest
    else
      match sectionName line with
      | some name => (readLines (String.ofList name) rest).map fun file =>
          { file with sections := String.ofList name :: file.sections }
      | none =>
        match splitAssign line with
        | some (key, value) => (readLines current rest).map fun file =>
            { file with
              entries := ⟨current, String.ofList key, String.ofList value⟩ :: file.entries }
        | none => none

def readFile (text : String) : Option File := readLines "" (text.toList.splitOn '\n')

/-- The host of the endpoint: an address in its usual form, or the name in ASCII. -/
def endpointHostOf (value : String) : String :=
  let host := trimSpace value
  match Net.parseIP host with
  | some ip => ip.format
  | none => (L.toASCII (String.ofList (if host.toList.getLast? = some '.' then
      host.toList.dropLast else host.toList))).getD ""

def unlessEmpty (value : String) : Option String := if value = "" then none else some value

/-- The keys of the section `Interface` and the values that are configured for them. -/
def interfaceSettings (config : AmneziaWGNodeConfig) (material : AmneziaWGMaterialRow) :
    List (String × Option String) :=
  let timings := (timingsOf L config).getD []
  [("HeaderProtectionKey", unlessEmpty config.headerProtectionKey),
    ("ContentPaddingAddition",
      if config.headerProtectionKey = "" then none
      else unlessEmpty config.contentPaddingAddition),
    ("RekeyAfterTime", unlessEmpty ((timings.lookup "RekeyAfterTime").getD "")),
    ("RekeyTimeout", unlessEmpty ((timings.lookup "RekeyTimeout").getD "")),
    ("RejectAfterTime", unlessEmpty ((timings.lookup "RejectAfterTime").getD "")),
    ("KeepaliveTimeout", unlessEmpty ((timings.lookup "KeepaliveTimeout").getD "")),
    ("MaxHandshakeAttempts", unlessEmpty ((timings.lookup "MaxHandshakeAttempts").getD "")),
    ("RandomTrailers", some (if config.randomTrailers then "on" else "off")),
    ("DisableCookies", some (if config.disableCookies then "on" else "off")),
    ("PrivateKey", some (trimSpace material.clientPrivateKey)),
    ("Address", some (trimSpace material.assignedIPv4 ++ "/" ++ "32")),
    ("DNS", some (joinCSV (splitCSV (defaultString config.dns defaultDNS)))),
    ("MTU", some (toString (defaultInt config.mtu defaultMTU))),
    ("Jc", some (toString config.jc)),
    ("Jmin", some (toString config.jmin)),
    ("Jmax", some (toString config.jmax)),
    ("S1", some (toString config.s1)),
    ("S2", some (toString config.s2)),
    ("S3", some (toString config.s3)),
    ("S4", some (toString config.s4)),
    ("H1", some config.h1),
    ("H2", some config.h2),
    ("H3", some config.h3),
    ("H4", some config.h4),
    ("I1", unlessEmpty config.i1),
    ("I2", unlessEmpty config.i2),
    ("I3", unlessEmpty config.i3),
    ("I4", unlessEmpty config.i4),
    ("I5", unlessEmpty config.i5)]

/-- The keys of the section `Peer` and the values that are configured for them. -/
def peerSettings (config : AmneziaWGNodeConfig) (material : AmneziaWGMaterialRow) :
    List (String × Option String) :=
  [("PublicKey", some (trimSpace config.serverPublicKey)),
    ("PresharedKey", some (trimSpace material.presharedKey)),
    ("Endpoint", some (Net.joinHostPort (endpointHostOf L config.endpointHost)
      (toString config.endpointPort))),
    ("AllowedIPs", some (joinCSV (splitCSV
      (defaultString config.clientRouteAllowedIPs defaultClientRouteAllowedIPs)))),
    ("PersistentKeepalive", some (toString config.persistentKeepalive))]

def entriesIn (header : String) (settings : List (String × Option String)) : List Entry :=
  settings.filterMap fun (key, value) => value.map fun value => ⟨header, key, value⟩

def configuredFile (config : AmneziaWGNodeConfig) (material : AmneziaWGMaterialRow) : File where
  sections := ["Interface", "Peer"]
  entries := entriesIn "Interface" (interfaceSettings L config material) ++
    entriesIn "Peer" (peerSettings L config material)

/-! ## Values without line breaks -/

def OneLine (s : String) : Prop := '\n' ∉ s.toList

theorem OneLine.append {s t : String} (hs : OneLine s) (ht : OneLine t) : OneLine (s ++ t) := by
  unfold OneLine at *
  rw [String.toList_append, List.mem_append]
  exact not_or.2 ⟨hs, ht⟩

theorem oneLine_toString (n : ℤ) : OneLine (toString n) := by
  unfold OneLine
  cases n with
  | ofNat n =>
    change '\n' ∉ (toString n).toList
    rw [Nat.toString_eq_ofList_toDigits, String.toList_ofList]
    exact Net.Foreign.not_mem_toDigits (by decide) (by decide) (by decide) n
  | negSucc n =>
    change '\n' ∉ ("-" ++ toString (n + 1)).toList
    rw [Nat.toString_eq_ofList_toDigits]
    simp only [String.toList_append, String.toList_ofList, List.mem_append]
    exact not_or.2 ⟨by decide,
      Net.Foreign.not_mem_toDigits (by decide) (by decide) (by decide) (n + 1)⟩

theorem validateConfigValue_ok {label value x : String}
    (h : validateConfigValue label value = .ok x) :
    x = trimSpace value ∧ OneLine (trimSpace value) := by
  obtain ⟨-, h⟩ := Except.guard_eq_ok.1 h
  split at h
  · cases h
  · next hcontrol =>
    rw [← Except.ok.inj h]
    refine ⟨rfl, fun hmem => hcontrol ?_⟩
    exact List.any_eq_true.2 ⟨'\n', hmem, by decide⟩

theorem validateIPv4Address_ok {label value x : String}
    (h : validateIPv4Address label value = .ok x) :
    x = trimSpace value ∧ OneLine (trimSpace value) := by
  obtain ⟨text, htext, h⟩ := Except.bind_eq_ok.1 h
  have hx : x = text := by
    split at h
    · cases h
    · split at h
      · exact (Except.ok.inj h).symm
      · cases h
  rw [hx]
  exact validateConfigValue_ok htext

theorem oneLine_of_labels {name : String} (h : (name.toList.splitOn '.').all labelPattern = true) :
    OneLine name := by
  intro hmem
  rcases mem_of_splitOn '.' hmem with hdot | ⟨label, hlabel, hmem⟩
  · exact absurd hdot (by decide)
  · have hpattern := List.all_eq_true.1 h label hlabel
    simp only [labelPattern, Bool.and_eq_true] at hpattern
    exact absurd (List.all_eq_true.1 hpattern.1.1.2 '\n' hmem) (by decide)

variable {key value x : String}

theorem validateEndpointHost_ok {L : Library} (h : validateEndpointHost L value = .ok x) :
    x = endpointHostOf L value ∧ OneLine (endpointHostOf L value) := by
  obtain ⟨host, hhost, h⟩ := Except.bind_eq_ok.1 h
  rw [(validateConfigValue_ok hhost).1] at h
  simp only [endpointHostOf]
  cases hip : Net.parseIP (trimSpace value) with
  | some ip =>
    simp only [hip] at h
    have hx : ip.format = x := Except.ok.inj h
    subst hx
    exact ⟨rfl, Net.Foreign.not_mem_format (by decide) ip⟩
  | none =>
    simp only [hip] at h
    split at h
    · cases h
    · next name hname =>
      obtain ⟨-, h⟩ := Except.guard_eq_ok.1 h
      split at h
      · next hlabels =>
        have hx : name = x := Except.ok.inj h
        subst hx
        rw [hname, Option.getD_some]
        exact ⟨rfl, oneLine_of_labels hlabels⟩
      · cases h

theorem trimSpace_of_mem_splitCSV {value entry : String} (h : entry ∈ splitCSV value) :
    trimSpace entry = entry := by
  obtain ⟨part, -, rfl⟩ := List.mem_map.1 (List.mem_filter.1 h).1
  exact trimSpace_idem _

variable {entries : List String}

theorem oneLine_joinCSV (h : ∀ entry ∈ entries, OneLine entry) :
    OneLine (joinCSV entries) := by
  intro hmem
  rw [joinCSV, String.toList_intercalate] at hmem
  rcases mem_of_mem_intercalate hmem with hsep | ⟨part, hpart, hmem⟩
  · exact absurd hsep (by decide)
  · obtain ⟨entry, hentry, rfl⟩ := List.mem_map.1 hpart
    exact h entry hentry hmem

theorem oneLine_of_validateDNSEntries (h : validateDNSEntries entries = .ok ())
    (htrim : ∀ entry ∈ entries, trimSpace entry = entry) :
    ∀ entry ∈ entries, OneLine entry := by
  induction entries with
  | nil => intro entry hentry; cases hentry
  | cons e entries ih =>
    rw [List.forall_mem_cons] at htrim ⊢
    obtain ⟨x, hx, h⟩ := Except.bind_eq_ok.1 h
    exact ⟨htrim.1 ▸ (validateIPv4Address_ok hx).2, ih h htrim.2⟩

theorem validateDNS_ok (h : validateDNS value = .ok x) :
    x = joinCSV (splitCSV value) ∧ OneLine (joinCSV (splitCSV value)) := by
  obtain ⟨-, h⟩ := Except.guard_eq_ok.1 h
  obtain ⟨_, hentries, h⟩ := Except.bind_eq_ok.1 h
  rw [← Except.ok.inj h]
  exact ⟨rfl, oneLine_joinCSV (oneLine_of_validateDNSEntries hentries
    fun _ => trimSpace_of_mem_splitCSV)⟩

theorem oneLine_of_validateRoutes {routes : List String} (h : validateRoutes routes = .ok ()) :
    ∀ route ∈ routes, OneLine route := by
  induction routes with
  | nil => intro route hroute; cases hroute
  | cons r routes ih =>
    rw [List.forall_mem_cons]
    unfold validateRoutes at h
    split at h
    · next hcidr => exact ⟨Net.Foreign.not_mem_of_parseCIDR (by decide) hcidr, ih h⟩
    · cases h

theorem validateAllowedRoutes_ok (h : validateAllowedRoutes value = .ok x) :
    x = joinCSV (splitCSV value) ∧ OneLine (joinCSV (splitCSV value)) := by
  obtain ⟨-, h⟩ := Except.guard_eq_ok.1 h
  obtain ⟨_, hroutes, h⟩ := Except.bind_eq_ok.1 h
  rw [← Except.ok.inj h]
  exact ⟨rfl, oneLine_joinCSV (oneLine_of_validateRoutes hroutes)⟩

theorem oneLine_joinHostPort {host port : String} (hhost : OneLine host) (hport : OneLine port) :
    OneLine (Net.joinHostPort host port) := by
  unfold Net.joinHostPort
  have hopen : OneLine "[" := by unfold OneLine; decide
  have hclose : OneLine "]:" := by unfold OneLine; decide
  have hcolon : OneLine ":" := by unfold OneLine; decide
  split
  · exact ((hopen.append hhost).append hclose).append hport
  · exact (hhost.append hcolon).append hport

structure CheckedParameters (config : AmneziaWGNodeConfig) : Prop where
  headers : ∀ value ∈ headers config, OneLine value
  padding : OneLine config.contentPaddingAddition
  timings : ∀ key, OneLine ((((timingsOf L config).getD []).lookup key).getD "")
  signatures : ∀ value ∈ signatures config, validateCPS value = .ok ()

variable {values : List String}

theorem oneLine_of_validateHeaders {seen : List (ℕ × ℕ)}
    (h : validateHeaders seen values = .ok ()) :
    ∀ value ∈ values, OneLine value := by
  induction values generalizing seen with
  | nil => intro value hvalue; cases hvalue
  | cons v values ih =>
    rw [List.forall_mem_cons]
    unfold validateHeaders at h
    obtain ⟨⟨a, b⟩, hr, h⟩ := Except.bind_eq_ok.1 h
    simp only at h
    split at h
    · cases h
    · refine ⟨?_, ih h⟩
      cases hrange : range v with
      | error e => rw [hrange] at hr; cases hr
      | ok r =>
        intro hmem
        rcases mem_range hrange hmem with hdigit | hhyphen
        · exact absurd hdigit (by decide)
        · exact absurd hhyphen (by decide)

theorem oneLine_of_validateTimings {timings : List (String × String)}
    (h : validateTimings timings = .ok ()) (key : String) :
    OneLine ((timings.lookup key).getD "") := by
  induction timings with
  | nil => simp [OneLine]
  | cons t timings ih =>
    obtain ⟨k, v⟩ := t
    obtain ⟨-, h⟩ := Except.guard_eq_ok.1 h
    split at h
    · next hv =>
      by_cases hk : key = k
      · subst hk
        simpa [List.lookup, OneLine] using newline_not_mem_offOrRange hv
      · have hne : (key == k) = false := by simpa using hk
        simpa [List.lookup, hne] using ih h
    · cases h

theorem validateCPS_of_validateSignatures {n : ℕ} (h : validateSignatures n values = .ok ()) :
    ∀ value ∈ values, validateCPS value = .ok () := by
  induction values generalizing n with
  | nil => intro value hvalue; cases hvalue
  | cons v values ih =>
    rw [List.forall_mem_cons]
    obtain ⟨_, hv, h⟩ := Except.bind_eq_ok.1 h
    refine ⟨?_, ih h⟩
    cases hcps : validateCPS v with
    | error e => rw [hcps] at hv; cases hv
    | ok _ => rfl

variable {config : AmneziaWGNodeConfig}

theorem checkedParameters {L : Library} (h : validateAmneziaWGParameters L config = .ok ()) :
    CheckedParameters L config := by
  unfold validateAmneziaWGParameters at h
  cases htimings : timingsOf L config with
  | none => rw [htimings] at h; cases h
  | some timings =>
    simp only [htimings] at h
    obtain ⟨_, hvalid, -⟩ := Except.bind_eq_ok.1 h
    obtain ⟨_, hheaders, hvalid⟩ := Except.bind_eq_ok.1 hvalid
    split at hvalid
    · cases hvalid
    · next hpadding =>
      obtain ⟨_, htimes, hsignatures⟩ := Except.bind_eq_ok.1 hvalid
      refine ⟨oneLine_of_validateHeaders hheaders, ?_, ?_,
        validateCPS_of_validateSignatures hsignatures⟩
      · exact newline_not_mem_offOrRange (by simpa using hpadding)
      · rw [htimings]
        exact oneLine_of_validateTimings htimes

/-! ## Lines and what a reader makes of them -/

inductive Line where
  | blank
  | header (name : String)
  | assign (key value : String)

def Line.text : Line → String
  | .blank => ""
  | .header name => "[" ++ name ++ "]"
  | .assign key value => NativeAWG.assign key value

/-- A key that a reader takes as it is: letters and digits, not empty. -/
def isKeyText (key : String) : Bool := key ≠ "" && key.toList.all Char.isAlphanum

def Line.Clean : Line → Prop
  | .blank => True
  | .header name => OneLine name
  | .assign key value => isKeyText key = true ∧ OneLine value

/-- The entries and the sections of the lines, from within the section `current`. -/
def fileOf : String → List Line → File
  | _, [] => ⟨[], []⟩
  | current, .blank :: rest => fileOf current rest
  | _, .header name :: rest =>
    let file := fileOf name rest
    { file with sections := name :: file.sections }
  | current, .assign key value :: rest =>
    let file := fileOf current rest
    { file with entries := ⟨current, key, value⟩ :: file.entries }

theorem splitAssign_assign {key : List Char} (value : List Char) (h : ' ' ∉ key) :
    splitAssign (key ++ " = ".toList ++ value) = some (key, value) := by
  induction key with
  | nil => rfl
  | cons c key ih =>
    rw [List.mem_cons, not_or] at h
    have hc : c ≠ ' ' := fun heq => h.1 heq.symm
    have ih := ih h.2
    rw [List.cons_append, List.cons_append, splitAssign, ih]
    · rfl
    · intro rest heq
      exact absurd heq hc

theorem sectionName_header (name : String) :
    sectionName (Line.header name).text.toList = some name.toList := by
  have htext : (Line.header name).text.toList = '[' :: (name.toList ++ [']']) := by
    simp [Line.text]
  simp [htext, sectionName]

theorem toList_text_assign (key value : String) :
    (Line.assign key value).text.toList = key.toList ++ " = ".toList ++ value.toList := by
  simp [Line.text, NativeAWG.assign]

theorem toList_of_isKeyText (h : isKeyText key = true) :
    ∃ c rest, key.toList = c :: rest ∧ c ≠ '[' := by
  simp only [isKeyText, Bool.and_eq_true, decide_eq_true_eq, List.all_eq_true] at h
  cases hk : key.toList with
  | nil => exact absurd (String.toList_eq_nil_iff.1 hk) h.1
  | cons c rest =>
    refine ⟨c, rest, rfl, ?_⟩
    rintro rfl
    exact absurd (h.2 '[' (by rw [hk]; exact List.mem_cons_self ..)) (by decide)

theorem sectionName_assign (value : String) (h : isKeyText key = true) :
    sectionName (Line.assign key value).text.toList = none := by
  obtain ⟨c, rest, hk, hc⟩ := toList_of_isKeyText h
  rw [toList_text_assign, hk]
  simp only [List.cons_append, sectionName]
  split
  · next heq => exact absurd (List.cons.inj heq).1 hc
  · rfl

theorem splitAssign_text (value : String) (h : isKeyText key = true) :
    splitAssign (Line.assign key value).text.toList = some (key.toList, value.toList) := by
  simp only [isKeyText, Bool.and_eq_true, List.all_eq_true] at h
  rw [toList_text_assign]
  exact splitAssign_assign value.toList fun hmem => absurd (h.2 ' ' hmem) (by decide)

variable {lines : List Line}

theorem readLines_text (h : ∀ line ∈ lines, line.Clean) (current : String) :
    readLines current (lines.map fun line => line.text.toList) = some (fileOf current lines) := by
  induction lines generalizing current with
  | nil => rfl
  | cons line lines ih =>
    rw [List.forall_mem_cons] at h
    have ih := ih h.2
    cases line with
    | blank => exact ih current
    | header name =>
      have hnil : (Line.header name).text.toList ≠ [] := by simp [Line.text]
      simp only [List.map_cons, readLines, if_neg hnil, sectionName_header, String.ofList_toList,
        ih name, Option.map_some, fileOf]
    | assign key value =>
      obtain ⟨hkey, -⟩ := h.1
      have hnil : (Line.assign key value).text.toList ≠ [] := by simp [toList_text_assign]
      simp only [List.map_cons, readLines, if_neg hnil, sectionName_assign value hkey,
        splitAssign_text value hkey, ih current, Option.map_some, fileOf, String.ofList_toList]

theorem oneLine_text {line : Line} (h : line.Clean) : OneLine line.text := by
  cases line with
  | blank => simp [OneLine, Line.text]
  | header name =>
    have hopen : OneLine "[" := by unfold OneLine; decide
    have hclose : OneLine "]" := by unfold OneLine; decide
    exact (hopen.append h).append hclose
  | assign key value =>
    obtain ⟨hkey, hvalue⟩ := h
    simp only [isKeyText, Bool.and_eq_true, List.all_eq_true] at hkey
    have hassign : OneLine " = " := by unfold OneLine; decide
    have hkeyLine : OneLine key := fun hmem => absurd (hkey.2 '\n' hmem) (by decide)
    exact (hkeyLine.append hassign).append hvalue

theorem splitOn_intercalate_text (hne : lines ≠ []) (h : ∀ line ∈ lines, line.Clean) :
    ("\n".intercalate (lines.map Line.text)).toList.splitOn '\n' =
      lines.map fun line => line.text.toList := by
  rw [String.toList_intercalate, List.map_map]
  refine List.splitOn_intercalate '\n' ?_ (by simpa using hne)
  intro text htext
  obtain ⟨line, hline, rfl⟩ := List.mem_map.1 htext
  exact oneLine_text (h line hline)

theorem readFile_intercalate (hne : lines ≠ []) (h : ∀ line ∈ lines, line.Clean) :
    readFile ("\n".intercalate (lines.map Line.text)) = some (fileOf "" lines) := by
  rw [readFile, splitOn_intercalate_text hne h, readLines_text h]

theorem not_mem_of_mem_splitOn {sep : Char} {cs part : List Char} (h : part ∈ cs.splitOn sep) :
    sep ∉ part := by
  induction cs generalizing part with
  | nil =>
    rw [List.splitOn_nil, List.mem_singleton] at h
    rw [h]
    exact List.not_mem_nil
  | cons c cs ih =>
    rw [List.splitOn_cons_eq_if_modifyHead] at h
    split at h
    · rcases List.mem_cons.1 h with rfl | h
      · exact List.not_mem_nil
      · exact ih h
    · rename_i hc
      obtain ⟨p, ps, hps⟩ := List.exists_cons_of_ne_nil (List.splitOn_ne_nil sep cs)
      rw [hps] at ih h
      rcases List.mem_cons.1 h with rfl | h
      · rw [List.mem_cons, not_or]
        exact ⟨fun heq => hc (by simp [heq]), ih List.mem_cons_self⟩
      · exact ih (List.mem_cons_of_mem p h)

theorem suffix_of_splitAssign {line key value : List Char}
    (h : splitAssign line = some (key, value)) : value <:+ line := by
  fun_induction splitAssign line generalizing key with
  | case1 => cases h
  | case2 =>
    cases h
    exact List.suffix_append [' ', '=', ' '] value
  | case3 c rest _ ih =>
    obtain ⟨⟨key', value'⟩, hrest, heq⟩ := Option.map_eq_some_iff.1 h
    cases heq
    exact (ih hrest).trans (List.suffix_cons c rest)

/-- The values that a reader finds are on one line. -/
theorem oneLine_of_readLines {current : String} {lines : List (List Char)} {file : File}
    (h : readLines current lines = some file) (hlines : ∀ line ∈ lines, '\n' ∉ line) :
    ∀ e ∈ file.entries, OneLine e.value := by
  induction lines generalizing current file with
  | nil =>
    cases h
    exact fun e he => absurd he List.not_mem_nil
  | cons line lines ih =>
    obtain ⟨hline, hlines⟩ := List.forall_mem_cons.1 hlines
    rw [readLines] at h
    split at h
    · exact ih h hlines
    · split at h
      · obtain ⟨rest, hrest, rfl⟩ := Option.map_eq_some_iff.1 h
        exact fun e he => ih hrest hlines e he
      · split at h
        · rename_i key value hsplit
          obtain ⟨rest, hrest, rfl⟩ := Option.map_eq_some_iff.1 h
          refine List.forall_mem_cons.2 ⟨fun hmem => hline ?_, ih hrest hlines⟩
          exact (suffix_of_splitAssign hsplit).subset (by simpa using hmem)
        · cases h

def assigns (settings : List (String × Option String)) : List Line :=
  settings.filterMap fun (key, value) => value.map fun value => .assign key value

theorem fileOf_assigns (current : String) (settings : List (String × Option String))
    (rest : List Line) :
    fileOf current (assigns settings ++ rest) =
      { fileOf current rest with
        entries := entriesIn current settings ++ (fileOf current rest).entries } := by
  induction settings with
  | nil => rfl
  | cons setting settings ih =>
    obtain ⟨key, value⟩ := setting
    cases value with
    | none => simpa [assigns, entriesIn] using ih
    | some value =>
      have hcons : assigns ((key, some value) :: settings) ++ rest =
          .assign key value :: (assigns settings ++ rest) := by simp [assigns]
      rw [hcons, fileOf, ih]
      simp [entriesIn]

def configuredLines (config : AmneziaWGNodeConfig) (material : AmneziaWGMaterialRow) : List Line :=
  .header "Interface" :: (assigns (interfaceSettings L config material) ++
    .blank :: .header "Peer" :: (assigns (peerSettings L config material) ++ [.blank]))

theorem fileOf_configuredLines (config : AmneziaWGNodeConfig) (material : AmneziaWGMaterialRow) :
    fileOf "" (configuredLines L config material) = configuredFile L config material := by
  simp only [configuredLines, fileOf, fileOf_assigns, configuredFile, List.append_nil]

/-! ## The lines that are rendered -/

/-- A line that is left out when its value is empty. -/
def optionalLine (key value : String) : List String :=
  if value = "" then [] else [assign key value]

theorem not_leftOut_assign (value : String) (h : isKeyText key = true)
    (hkey : key.toList.head? ≠ some 'I') : leftOut (assign key value) = false := by
  obtain ⟨c, rest, hk, -⟩ := toList_of_isKeyText h
  have hhead : (assign key value).toList.head? = key.toList.head? := by simp [assign, hk]
  simp [leftOut, hhead, hkey]

/-- A signature packet that is valid is left out only when it is empty. -/
theorem leftOut_signature (hkey : key.toList.head? = some 'I') (h : validateCPS value = .ok ()) :
    leftOut (assign key value) = decide (value = "") := by
  have hhead : (assign key value).toList.head? = some 'I' := by
    cases hk : key.toList with
    | nil => simp [hk] at hkey
    | cons c rest => simpa [assign, hk] using hkey
  by_cases hempty : value = ""
  · subst hempty
    have hsuffix : " = ".toList <:+ (assign key "").toList := by simp [assign]
    rw [leftOut, hhead, decide_eq_true hsuffix]
    rfl
  · have hsuffix : ¬ " = ".toList <:+ (assign key value).toList := by
      -- the value ends with a closing bracket and white space
      obtain ⟨text, tail, hvalue, htail⟩ := validateCPS_tail h hempty
      intro hs
      have hrev : " = ".toList.reverse <+: (assign key value).toList.reverse :=
        List.reverse_prefix.2 hs
      simp only [assign, String.toList_append, hvalue, List.reverse_append, List.reverse_cons,
        List.append_assoc] at hrev
      have htail' : ∀ c ∈ tail.reverse, isSpace c = true := fun c hc =>
        htail c (List.mem_reverse.1 hc)
      cases hr : tail.reverse with
      | nil =>
        rw [hr] at hrev
        obtain ⟨rest, hrest⟩ := hrev
        exact absurd (List.cons.inj hrest).1 (by decide)
      | cons a l =>
        rw [hr] at hrev htail'
        obtain ⟨rest, hrest⟩ := hrev
        have hsecond := (List.cons.inj hrest).2
        cases l with
        | nil => exact absurd (List.cons.inj hsecond).1 (by decide)
        | cons b l =>
          have hb : '=' = b := (List.cons.inj hsecond).1
          exact absurd (htail' b (by simp)) (by rw [← hb]; decide)
    rw [leftOut, decide_eq_false hsuffix, Bool.and_false, decide_eq_false hempty]

theorem assign_ne_interface (value : String) (h : isKeyText key = true) :
    assign key value ≠ "[Interface]" := by
  intro heq
  obtain ⟨c, rest, hk, hc⟩ := toList_of_isKeyText h
  have hlist := congrArg String.toList heq
  rw [assign, String.toList_append, String.toList_append, hk] at hlist
  exact hc (List.cons.inj hlist).1

/-- What `renderProfile` makes of one line. -/
def profileLine (config : AmneziaWGNodeConfig) (line : String) : List String :=
  if leftOut line then []
  else if line = "[Interface]" then line :: interfaceLines L config
  else [line]

theorem profileLine_assign (config : AmneziaWGNodeConfig) (value : String)
    (h : isKeyText key = true) (hkey : key.toList.head? ≠ some 'I') :
    profileLine L config (assign key value) = [assign key value] := by
  simp [profileLine, not_leftOut_assign value h hkey, assign_ne_interface value h]

theorem profileLine_signature (config : AmneziaWGNodeConfig) (h : isKeyText key = true)
    (hkey : key.toList.head? = some 'I') (hcps : validateCPS value = .ok ()) :
    profileLine L config (assign key value) = optionalLine key value := by
  by_cases hempty : value = ""
  · rw [profileLine, leftOut_signature hkey hcps, optionalLine, if_pos hempty]
    simp [hempty]
  · simp [profileLine, optionalLine, leftOut_signature hkey hcps, hempty,
      assign_ne_interface value h]

theorem map_text_assigns_some (key value : String) (settings : List (String × Option String)) :
    (assigns ((key, some value) :: settings)).map Line.text =
      assign key value :: (assigns settings).map Line.text := by
  simp [assigns, Line.text]

theorem map_text_assigns_unlessEmpty (key value : String)
    (settings : List (String × Option String)) :
    (assigns ((key, unlessEmpty value) :: settings)).map Line.text =
      optionalLine key value ++ (assigns settings).map Line.text := by
  by_cases hempty : value = ""
  · simp [assigns, unlessEmpty, optionalLine, hempty]
  · simp [assigns, unlessEmpty, optionalLine, hempty, Line.text]

theorem filterMap_optionalLine (g : String → String) (keys : List String) :
    (keys.filterMap fun key => if g key ≠ "" then some (assign key (g key)) else none) =
      keys.flatMap fun key => optionalLine key (g key) := by
  induction keys with
  | nil => rfl
  | cons key keys ih =>
    rw [List.filterMap_cons, ih, List.flatMap_cons]
    by_cases hempty : g key = ""
    · simp [optionalLine, hempty]
    · simp [optionalLine, hempty]

/-- The lines that `renderProfile` puts after `[Interface]`, one by one. -/
theorem interfaceLines_eq (config : AmneziaWGNodeConfig) :
    interfaceLines L config =
      optionalLine "HeaderProtectionKey" config.headerProtectionKey ++
        ((if config.headerProtectionKey = "" then []
          else optionalLine "ContentPaddingAddition" config.contentPaddingAddition) ++
        ((timingNames.flatMap fun key =>
            optionalLine key ((((timingsOf L config).getD []).lookup key).getD "")) ++
        [assign "RandomTrailers" (formatBool config.randomTrailers),
          assign "DisableCookies" (formatBool config.disableCookies)])) := by
  unfold interfaceLines
  rw [filterMap_optionalLine]
  by_cases hkey : config.headerProtectionKey = ""
  · simp [optionalLine, hkey]
  · by_cases hpadding : config.contentPaddingAddition = ""
    · simp [optionalLine, hkey, hpadding]
    · simp [optionalLine, hkey, hpadding]

theorem map_text_assigns_padding (config : AmneziaWGNodeConfig)
    (settings : List (String × Option String)) :
    (assigns (("ContentPaddingAddition", if config.headerProtectionKey = "" then none
      else unlessEmpty config.contentPaddingAddition) :: settings)).map Line.text =
      (if config.headerProtectionKey = "" then []
        else optionalLine "ContentPaddingAddition" config.contentPaddingAddition) ++
        (assigns settings).map Line.text := by
  by_cases hkey : config.headerProtectionKey = ""
  · rw [if_pos hkey, if_pos hkey]
    rfl
  · rw [if_neg hkey, if_neg hkey, map_text_assigns_unlessEmpty]

variable {material : AmneziaWGMaterialRow}

/-- The file is the one that says what is configured. -/
theorem renderProfile_clientLines (hchecked : CheckedParameters L config) :
    renderProfile L config (clientLines config (trimSpace material.clientPrivateKey)
        (trimSpace material.assignedIPv4)
        (joinCSV (splitCSV (defaultString config.dns defaultDNS)))
        (trimSpace config.serverPublicKey) (trimSpace material.presharedKey)
        (endpointHostOf L config.endpointHost)
        (joinCSV (splitCSV
          (defaultString config.clientRouteAllowedIPs defaultClientRouteAllowedIPs)))) =
      "\n".intercalate ((configuredLines L config material).map Line.text) := by
  have hcps := hchecked.signatures
  simp only [signatures, List.mem_cons, List.not_mem_nil, or_false, forall_eq_or_imp,
    forall_eq] at hcps
  obtain ⟨h1, h2, h3, h4, h5⟩ := hcps
  have hinterface : profileLine L config "[Interface]" =
      "[Interface]" :: interfaceLines L config := by
    rw [profileLine, if_neg (by decide), if_pos rfl]
  have hblank : profileLine L config "" = [""] := by
    rw [profileLine, if_neg (by decide), if_neg (by decide)]
  have hpeer : profileLine L config "[Peer]" = ["[Peer]"] := by
    rw [profileLine, if_neg (by decide), if_neg (by decide)]
  have hlines : ∀ lines, renderProfile L config lines =
      "\n".intercalate (lines.flatMap (profileLine L config)) := fun _ => rfl
  rw [hlines]
  congr 1
  have hnil : (assigns []).map Line.text = [] := rfl
  simp only [configuredLines, List.map_cons, List.map_append, List.map_nil, Line.text,
    interfaceSettings, peerSettings, map_text_assigns_unlessEmpty, map_text_assigns_some,
    map_text_assigns_padding, hnil]
  simp (disch := decide) only [clientLines, List.flatMap_cons, List.flatMap_nil, hinterface,
    hblank, hpeer, profileLine_assign, profileLine_signature L config _ _ h1,
    profileLine_signature L config _ _ h2, profileLine_signature L config _ _ h3,
    profileLine_signature L config _ _ h4, profileLine_signature L config _ _ h5,
    interfaceLines_eq, timingNames, formatBool]
  simp only [List.append_assoc, List.cons_append, List.nil_append, List.append_nil]
  rfl

/-! ## The file of a client -/

def CleanSetting (setting : String × Option String) : Prop :=
  isKeyText setting.1 = true ∧ ∀ value, setting.2 = some value → OneLine value

theorem clean_assigns {settings : List (String × Option String)}
    (h : ∀ setting ∈ settings, CleanSetting setting) : ∀ line ∈ assigns settings, line.Clean := by
  intro line hline
  obtain ⟨⟨key, value⟩, hmem, heq⟩ := List.mem_filterMap.1 hline
  obtain ⟨x, hx, rfl⟩ := Option.map_eq_some_iff.1 heq
  obtain ⟨hkey, hvalue⟩ := h _ hmem
  exact ⟨hkey, hvalue x hx⟩

theorem cleanSetting_some (hkey : isKeyText key = true) :
    CleanSetting (key, some value) ↔ OneLine value :=
  ⟨fun h => h.2 value rfl, fun h => ⟨hkey, fun _ hx => Option.some.inj hx ▸ h⟩⟩

theorem cleanSetting_unlessEmpty (hkey : isKeyText key = true) :
    CleanSetting (key, unlessEmpty value) ↔ OneLine value := by
  by_cases hempty : value = ""
  · subst hempty
    exact ⟨fun _ => List.not_mem_nil, fun _ => ⟨hkey, fun _ hx => nomatch hx⟩⟩
  · rw [unlessEmpty, if_neg hempty]
    exact cleanSetting_some hkey

/-- The values of a file that `RenderClientConf` has checked. -/
structure CheckedValues (config : AmneziaWGNodeConfig) (material : AmneziaWGMaterialRow) :
    Prop where
  parameters : CheckedParameters L config
  clientPrivateKey : OneLine (trimSpace material.clientPrivateKey)
  presharedKey : OneLine (trimSpace material.presharedKey)
  serverPublicKey : OneLine (trimSpace config.serverPublicKey)
  endpointHost : OneLine (endpointHostOf L config.endpointHost)
  assignedIPv4 : OneLine (trimSpace material.assignedIPv4)
  dns : OneLine (joinCSV (splitCSV (defaultString config.dns defaultDNS)))
  allowedIPs : OneLine (joinCSV (splitCSV
    (defaultString config.clientRouteAllowedIPs defaultClientRouteAllowedIPs)))

section

variable (h : CheckedValues L config material)

include h

theorem clean_interfaceSettings (hkey : OneLine config.headerProtectionKey) :
    ∀ setting ∈ interfaceSettings L config material, CleanSetting setting := by
  have hheaders := h.parameters.headers
  have hsignatures : ∀ value ∈ signatures config, OneLine value := fun value hvalue =>
    newline_not_mem_of_validateCPS (h.parameters.signatures value hvalue)
  simp only [headers, signatures, List.forall_mem_cons] at hheaders hsignatures
  have hswitch : ∀ b : Bool, OneLine (if b = true then "on" else "off") := by
    unfold OneLine
    decide
  have hprefix : OneLine ("/" ++ "32") := by
    unfold OneLine
    decide
  have haddress : OneLine (trimSpace material.assignedIPv4 ++ "/" ++ "32") := by
    rw [String.append_assoc]
    exact h.assignedIPv4.append hprefix
  have hpadding : CleanSetting ("ContentPaddingAddition",
      if config.headerProtectionKey = "" then none
      else unlessEmpty config.contentPaddingAddition) := by
    split
    · exact ⟨by decide, fun _ hx => nomatch hx⟩
    · exact (cleanSetting_unlessEmpty (by decide)).2 h.parameters.padding
  simp (disch := decide) only [interfaceSettings, List.forall_mem_cons, cleanSetting_some,
    cleanSetting_unlessEmpty, hkey, hpadding, h.parameters.timings, hswitch, h.clientPrivateKey,
    haddress, h.dns, oneLine_toString, hheaders, hsignatures, List.not_mem_nil, false_imp_iff,
    implies_true, and_self]

theorem clean_peerSettings :
    ∀ setting ∈ peerSettings L config material, CleanSetting setting := by
  have hendpoint := oneLine_joinHostPort h.endpointHost (oneLine_toString config.endpointPort)
  simp (disch := decide) only [peerSettings, List.forall_mem_cons, cleanSetting_some,
    h.serverPublicKey, h.presharedKey, hendpoint, h.allowedIPs, oneLine_toString,
    List.not_mem_nil, false_imp_iff, implies_true, and_self]

theorem clean_configuredLines (hkey : OneLine config.headerProtectionKey) :
    ∀ line ∈ configuredLines L config material, line.Clean := by
  intro line hline
  simp only [configuredLines, List.mem_cons, List.mem_append, List.not_mem_nil, or_false] at hline
  have hheader : ∀ name ∈ ["Interface", "Peer"], OneLine name := by
    unfold OneLine
    decide
  rcases hline with rfl | hline | rfl | rfl | hline | rfl
  · exact hheader "Interface" (by decide)
  · exact clean_assigns (clean_interfaceSettings L h hkey) line hline
  · trivial
  · exact hheader "Peer" (by decide)
  · exact clean_assigns (clean_peerSettings L h) line hline
  · trivial

end

variable {L}

theorem validateAmneziaWGParameters_withPoolDefaults (config : AmneziaWGNodeConfig) :
    validateAmneziaWGParameters L (withPoolDefaults config) =
      validateAmneziaWGParameters L config := by
  simp only [validateAmneziaWGParameters, timingsOf, headers, signatures, validateHeaderKey,
    roomForHeaders, numbers, withPoolDefaults]
  rfl

theorem checkedParameters_of_validateNodeConfig (h : validateNodeConfig L config = .ok ()) :
    CheckedParameters L config := by
  have h := (accepted_of_validateNodeConfig h).parameters
  rw [validateAmneziaWGParameters_withPoolDefaults] at h
  exact checkedParameters h

/-- What `RenderClientConf` has checked, and the text it gives. -/
theorem renderClientConf_ok {text : String} (h : renderClientConf L config material = .ok text) :
    CheckedValues L config material ∧
      text = "\n".intercalate ((configuredLines L config material).map Line.text) := by
  unfold renderClientConf at h
  obtain ⟨_, hnode, h⟩ := Except.bind_eq_ok.1 h
  obtain ⟨clientPrivateKey, hclient, h⟩ := Except.bind_eq_ok.1 h
  obtain ⟨psk, hpsk, h⟩ := Except.bind_eq_ok.1 h
  obtain ⟨serverPublicKey, hserver, h⟩ := Except.bind_eq_ok.1 h
  obtain ⟨endpointHost, hendpoint, h⟩ := Except.bind_eq_ok.1 h
  obtain ⟨_, -, h⟩ := Except.bind_eq_ok.1 h
  obtain ⟨assignedIPv4, hassigned, h⟩ := Except.bind_eq_ok.1 h
  obtain ⟨dns, hdns, h⟩ := Except.bind_eq_ok.1 h
  obtain ⟨allowedIPs, hallowed, h⟩ := Except.bind_eq_ok.1 h
  have hparameters := checkedParameters_of_validateNodeConfig hnode
  obtain ⟨hclientEq, hclient⟩ := validateConfigValue_ok hclient
  obtain ⟨hpskEq, hpsk⟩ := validateConfigValue_ok hpsk
  obtain ⟨hserverEq, hserver⟩ := validateConfigValue_ok hserver
  obtain ⟨hendpointEq, hendpoint⟩ := validateEndpointHost_ok hendpoint
  obtain ⟨hassignedEq, hassigned⟩ := validateIPv4Address_ok hassigned
  obtain ⟨hdnsEq, hdns⟩ := validateDNS_ok hdns
  obtain ⟨hallowedEq, hallowed⟩ := validateAllowedRoutes_ok hallowed
  have htext : renderProfile L config (clientLines config clientPrivateKey assignedIPv4 dns
      serverPublicKey psk endpointHost allowedIPs) = text := Except.ok.inj h
  refine ⟨⟨hparameters, hclient, hpsk, hserver, hendpoint, hassigned, hdns, hallowed⟩, ?_⟩
  rw [← htext, hclientEq, hpskEq, hserverEq, hendpointEq, hassignedEq, hdnsEq, hallowedEq]
  exact renderProfile_clientLines L hparameters

theorem keys_entriesIn (header : String) (settings : List (String × Option String)) :
    ((entriesIn header settings).map fun e => (e.header, e.key)).Sublist
      (settings.map fun setting => (header, setting.1)) := by
  induction settings with
  | nil => exact List.Sublist.slnil
  | cons setting settings ih =>
    obtain ⟨key, value⟩ := setting
    cases value with
    | none => exact ih.cons (header, key)
    | some value => exact ih.cons_cons (header, key)

theorem nodup_configuredFile (config : AmneziaWGNodeConfig) (material : AmneziaWGMaterialRow) :
    ((configuredFile L config material).entries.map fun e => (e.header, e.key)).Nodup := by
  have hsub := (keys_entriesIn "Interface" (interfaceSettings L config material)).append
    (keys_entriesIn "Peer" (peerSettings L config material))
  rw [configuredFile, List.map_append]
  refine hsub.nodup ?_
  simp only [interfaceSettings, peerSettings, List.map_cons, List.map_nil]
  decide

/-- A node with the given header protection key and defaults elsewhere. -/
def plainNode (headerKey : String) : AmneziaWGNodeConfig where
  nodeID := "n"
  endpointHost := "192.0.2.1"
  endpointPort := 51820
  listenPort := 51820
  serverIPv4 := ""
  clientIPv4CIDR := ""
  firstClientIPv4 := ""
  lastClientIPv4 := ""
  dns := ""
  mtu := 0
  persistentKeepalive := 25
  clientRouteAllowedIPs := ""
  serverPrivateKey := "k"
  serverPublicKey := "p"
  jc := 4
  jmin := 40
  jmax := 70
  s1 := 15
  s2 := 16
  s3 := 17
  s4 := 18
  h1 := "1"
  h2 := "2"
  h3 := "3"
  h4 := "4-9"
  i1 := "<r 8>"
  i2 := ""
  i3 := ""
  i4 := ""
  i5 := ""
  headerProtectionKey := headerKey
  contentPaddingAddition := ""
  timingsJSON := ""
  randomTrailers := true
  disableCookies := false
  configVersionMS := 1
  appliedConfigVersionMS := 0
  configErrorID := ""
  clientRouteMode := ""
  clientExcludedRoutes := ""

def plainMaterial : AmneziaWGMaterialRow where
  connectionID := "c"
  clientPublicKey := "q"
  presharedKey := "s"
  assignedIPv4 := "10.8.1.2"
  nodeID := "n"
  clientPrivateKey := "r"

/-- No names, no timings. -/
def bareLibrary : Library := ⟨fun _ => none, fun _ => none⟩

end LazGate.NativeAWG
