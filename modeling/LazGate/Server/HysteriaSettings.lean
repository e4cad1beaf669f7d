import LazGate.Hysteria.Files
import LazGate.Hysteria.Install

/-!
# The view of the Hysteria settings

`Public` of `internal/server/hysteriasettings` shows the stored settings of a node without their
secrets: passwords are blanked, and the user is taken out of some of the URLs.
-/

namespace LazGate.HysteriaSettings

open Hy2config Provisioning

/-- A row of `hysteria2_node_configs`, with what `Public` reads of it. -/
structure NodeConfig where
  settings : Option Config
  masqueradeFileSetID : String
  configVersionMS : ℤ
  appliedConfigVersionMS : ℤ
  configErrorID : String
  endpointHost : String
  endpointPort : ℤ

structure Input where
  fileSetID : String
  version : ℤ
  endpointHost : String
  endpointPort : ℤ
  settings : Config

/-- `View`, with the manifest `M` of a file set. -/
structure View (M : Type) extends Input where
  fileSet : Option M
  appliedVersion : ℤ
  errorID : String
  obfsPasswordSet : Bool

def redactURL (L : InstallLibrary) (raw : String) : String := (L.withoutUser raw).getD raw

def redactOutbound (L : InstallLibrary) (o : Outbound) : Outbound :=
  { o with password := "", url := if o.type = "http" then redactURL L o.url else o.url }

/-- The settings as they are shown. -/
def redact (L : InstallLibrary) (s : Config) : Config :=
  { s with
    obfs := { s.obfs with password := "" }
    outbounds := s.outbounds.map (redactOutbound L)
    masquerade := { s.masquerade with url := redactURL L s.masquerade.url } }

/-- `Public`: a view, an error, or both. `manifest` reads and decodes the manifest of a set. -/
def publicView {M : Type} (L : InstallLibrary) (manifest : String → Except String M)
    (c : NodeConfig) : Option (View M) × Option String :=
  match c.settings with
  | none => (none, some "Hysteria settings snapshot is missing")
  | some s =>
    let view : View M :=
      { fileSetID := c.masqueradeFileSetID
        version := c.configVersionMS
        endpointHost := c.endpointHost
        endpointPort := c.endpointPort
        settings := redact L s
        fileSet := none
        appliedVersion := c.appliedConfigVersionMS
        errorID := c.configErrorID
        obfsPasswordSet := s.obfs.password != "" }
    if c.masqueradeFileSetID = "" then (some view, none)
    else
      match manifest c.masqueradeFileSetID with
      | .ok set => (some { view with fileSet := some set }, none)
      | .error e => (some view, some e)

/-! ## What the view hides -/

/-- The text of a URL with a host, and with a user before it or not. -/
def urlText (scheme : String) (user : Option String) (rest : String) : String :=
  scheme ++ "://" ++ (user.elim "" fun u => u ++ "@") ++ rest

/-- A scheme of RFC 3986: a letter, and letters, digits and the signs `+`, `-` and `.` after it. -/
def isScheme (scheme : String) : Bool :=
  match scheme.toList with
  | [] => false
  | c :: cs => c.isAlpha && cs.all fun c => c.isAlphanum || c == '+' || c == '-' || c == '.'

/-- `user` can stand before the host: it ends none of the parts of a URL. -/
def isUser (user : String) : Bool := user.toList.all fun c => c != '/' && c != '?' && c != '#'

/-- The URLs differ in their users only. -/
inductive SameURL : String → String → Prop where
  | refl (u : String) : SameURL u u
  | users {scheme : String} (hscheme : isScheme scheme = true) {user user' : Option String}
      (huser : user.all isUser = true) (huser' : user'.all isUser = true) (rest : String) :
      SameURL (urlText scheme user rest) (urlText scheme user' rest)

/-- What is assumed of `url.Parse` and `String`. -/
structure URLs (L : InstallLibrary) : Prop where
  /-- Without the user, nothing of it is left. -/
  ignoresUser : ∀ u u' r r', SameURL u u' → L.withoutUser u = some r →
    L.withoutUser u' = some r' → r = r'
  /-- `String` reassembles the URL into a valid URL string. -/
  reparses : ∀ scheme user rest r, isScheme scheme = true → user.all isUser = true →
    L.withoutUser (urlText scheme user rest) = some r → (L.withoutUser r).isSome

def SameOutbound (o o' : Outbound) : Prop :=
  { o with password := "", url := "" } = { o' with password := "", url := "" } ∧
    SameURL o.url o'.url

/-- The settings without the places where secrets are. -/
def blank (s : Config) : Config :=
  { s with
    obfs := { s.obfs with password := "" }
    outbounds := []
    masquerade := { s.masquerade with url := "" } }

structure SameButSecrets (s s' : Config) : Prop where
  rest : blank s = blank s'
  obfs : s.obfs.password ≠ "" ∧ s'.obfs.password ≠ "" ∨ s.obfs.password = s'.obfs.password
  outbounds : List.Forall₂ SameOutbound s.outbounds s'.outbounds
  masquerade : SameURL s.masquerade.url s'.masquerade.url

/-- Both URLs can be parsed. -/
def Parsed (L : InstallLibrary) (u u' : String) : Prop :=
  (L.withoutUser u).isSome ∧ (L.withoutUser u').isSome

variable {L : InstallLibrary}

theorem redactURL_ne_of_none (hL : URLs L) {scheme rest u : String} {user : Option String}
    (hscheme : isScheme scheme = true) (huser : user.all isUser = true)
    (h : (L.withoutUser (urlText scheme user rest)).isSome) (hnone : L.withoutUser u = none) :
    redactURL L (urlText scheme user rest) ≠ redactURL L u := by
  obtain ⟨r, hr⟩ := Option.isSome_iff_exists.1 h
  intro heq
  rw [redactURL, redactURL, hr, hnone, Option.getD_some, Option.getD_none] at heq
  have hparsed := hL.reparses scheme user rest r hscheme huser hr
  rw [heq, hnone] at hparsed
  cases hparsed

theorem redactURL_eq_iff (hL : URLs L) {u u' : String} (h : SameURL u u') :
    redactURL L u = redactURL L u' ↔ u = u' ∨ Parsed L u u' := by
  constructor
  · intro heq
    cases h with
    | refl => exact .inl rfl
    | @users scheme hscheme user user' huser huser' rest =>
      cases hu : L.withoutUser (urlText scheme user rest) with
      | none =>
        cases hu' : L.withoutUser (urlText scheme user' rest) with
        | none =>
          rw [redactURL, redactURL, hu, hu'] at heq
          exact .inl heq
        | some r' =>
          have hsome : (L.withoutUser (urlText scheme user' rest)).isSome := by rw [hu']; rfl
          exact absurd heq.symm (redactURL_ne_of_none hL hscheme huser' hsome hu)
      | some r =>
        have hsome : (L.withoutUser (urlText scheme user rest)).isSome := by rw [hu]; rfl
        cases hu' : L.withoutUser (urlText scheme user' rest) with
        | none => exact absurd heq (redactURL_ne_of_none hL hscheme huser hsome hu')
        | some r' => exact .inr ⟨hsome, by rw [hu']; rfl⟩
  · rintro (rfl | ⟨hr, hr'⟩)
    · rfl
    · obtain ⟨r, hr⟩ := Option.isSome_iff_exists.1 hr
      obtain ⟨r', hr'⟩ := Option.isSome_iff_exists.1 hr'
      rw [redactURL, redactURL, hr, hr', Option.getD_some, Option.getD_some]
      exact hL.ignoresUser u u' r r' h hr hr'

/-- The URLs of two outbounds are equal, or are parsed and in the field that the type uses. -/
def RedactableOutbound (L : InstallLibrary) (o o' : Outbound) : Prop :=
  o.url = o'.url ∨ o.type = "http" ∧ Parsed L o.url o'.url

/-- URLs that differ are parsed, and those of outbounds are in the field that the type uses. -/
def Redactable (L : InstallLibrary) (s s' : Config) : Prop :=
  (s.masquerade.url = s'.masquerade.url ∨ Parsed L s.masquerade.url s'.masquerade.url) ∧
    List.Forall₂ (RedactableOutbound L) s.outbounds s'.outbounds

variable {o : Outbound}

theorem redactOutbound_eq_iff (hL : URLs L) {o' : Outbound} (h : SameOutbound o o') :
    redactOutbound L o = redactOutbound L o' ↔ RedactableOutbound L o o' := by
  have hurl := redactURL_eq_iff hL h.2
  have hrest := h.1
  obtain ⟨⟩ := o
  obtain ⟨⟩ := o'
  simp only [Outbound.mk.injEq, true_and] at hrest
  obtain ⟨rfl, rfl, rfl, rfl, rfl, rfl, rfl, rfl, rfl, rfl⟩ := hrest
  simp only [redactOutbound, RedactableOutbound, Outbound.mk.injEq, true_and, and_true]
  split
  · rename_i htype
    simpa only [htype, true_and] using hurl
  · rename_i htype
    simp only [htype, false_and, or_false]

theorem map_redactOutbound_eq_iff (hL : URLs L) {l l' : List Outbound}
    (h : List.Forall₂ SameOutbound l l') :
    l.map (redactOutbound L) = l'.map (redactOutbound L) ↔
      List.Forall₂ (RedactableOutbound L) l l' := by
  induction h with
  | nil => exact iff_of_true rfl .nil
  | cons ho _ ih =>
    rw [List.map_cons, List.map_cons, List.cons_eq_cons, redactOutbound_eq_iff hL ho, ih,
      List.forall₂_cons]

theorem redact_eq_iff (hL : URLs L) {s s' : Config} (h : SameButSecrets s s') :
    redact L s = redact L s' ↔ Redactable L s s' := by
  have hput : ∀ s, redact L s = { blank s with
      outbounds := s.outbounds.map (redactOutbound L)
      masquerade := { (blank s).masquerade with url := redactURL L s.masquerade.url } } :=
    fun _ => rfl
  rw [Redactable, ← redactURL_eq_iff hL h.masquerade, ← map_redactOutbound_eq_iff hL h.outbounds]
  constructor
  · intro heq
    exact ⟨congrArg (fun c => c.masquerade.url) heq, congrArg Config.outbounds heq⟩
  · rintro ⟨hmasquerade, houtbounds⟩
    rw [hput s, hput s', h.rest, houtbounds, hmasquerade]

/-- The settings in a view. -/
theorem settings_publicView {M : Type} (manifest : String → Except String M) (c : NodeConfig)
    (s : Config) : (publicView L manifest { c with settings := some s }).1.map
      (fun view => view.settings) = some (redact L s) := by
  unfold publicView
  dsimp only
  split
  · rfl
  · split <;> rfl

/-- Settings that differ in their secrets only have equal views just if the URLs that differ are
parsed and belong to the masquerade or to outbounds of type `http`. -/
theorem settings_view_hides_secrets_iff {M : Type} (L : InstallLibrary) (hL : URLs L)
    (manifest : String → Except String M) (c : NodeConfig) (s s' : Config)
    (hsame : SameButSecrets s s') :
    publicView L manifest { c with settings := some s } =
      publicView L manifest { c with settings := some s' } ↔ Redactable L s s' := by
  rw [← redact_eq_iff hL hsame]
  constructor
  · intro h
    have hviews := congrArg (fun r => r.1.map fun view => view.settings) h
    exact Option.some.inj ((settings_publicView manifest c s).symm.trans
      (hviews.trans (settings_publicView manifest c s')))
  · intro hredact
    have hset : (s.obfs.password != "") = (s'.obfs.password != "") := by
      rcases hsame.obfs with ⟨h, h'⟩ | h
      · rw [bne_iff_ne.2 h, bne_iff_ne.2 h']
      · rw [h]
    simp only [publicView, hredact, hset]

/-- The URLs of one proxy. -/
def proxyTexts : List String := ["http://a:b@proxy", "http://a:c@proxy", "http://proxy"]

/-- The library on these and on the empty text. -/
def proxyURLs : InstallLibrary :=
  { smallLibrary with
    parseURL := fun raw => if raw ∈ proxyTexts then some ("http", "proxy") else none
    withoutUser := fun raw =>
      if raw = "" then some "" else if raw ∈ proxyTexts then some "http://proxy" else none }

theorem withoutUser_proxyURLs {u r : String} (hu : u ≠ "")
    (h : proxyURLs.withoutUser u = some r) : r = "http://proxy" := by
  change (if u = "" then some "" else if u ∈ proxyTexts then some "http://proxy" else none) =
    some r at h
  rw [if_neg hu] at h
  split at h
  · exact (Option.some.inj h).symm
  · cases h

theorem urlText_ne_empty (scheme : String) (user : Option String) (rest : String) :
    urlText scheme user rest ≠ "" := by
  intro h
  simpa [urlText] using congrArg String.toList h

theorem urls_proxyURLs : URLs proxyURLs where
  ignoresUser := by
    rintro u u' r r' (_ | _) hr hr'
    · exact Option.some.inj (hr.symm.trans hr')
    · rw [withoutUser_proxyURLs (urlText_ne_empty _ _ _) hr,
        withoutUser_proxyURLs (urlText_ne_empty _ _ _) hr']
  reparses := by
    intro scheme user rest r _ _ hr
    rw [withoutUser_proxyURLs (urlText_ne_empty _ _ _) hr]
    decide

def storedNode : NodeConfig := ⟨none, "", 1, 1, "", "node.example", 443⟩

/-- Settings with a password and a proxy. -/
def withProxy (password url : String) : Config :=
  { defaults with
    obfs := { defaults.obfs with type := "salamander", password := password }
    outbounds := [⟨"proxy", "http", "", "", "", "", false, "", "", "", url, false⟩] }

theorem settings_view_hides_proxy :
    publicView proxyURLs (fun _ => .ok ())
        { storedNode with settings := some (withProxy "secret" "http://a:b@proxy") } =
      publicView proxyURLs (fun _ => .ok ())
        { storedNode with settings := some (withProxy "hidden" "http://a:c@proxy") } := by
  refine (settings_view_hides_secrets_iff proxyURLs urls_proxyURLs _ storedNode
    (withProxy "secret" "http://a:b@proxy") (withProxy "hidden" "http://a:c@proxy")
    ⟨rfl, .inl ⟨by decide, by decide⟩, .cons ⟨rfl, ?_⟩ .nil, .refl _⟩).2
    ⟨.inl rfl, .cons (.inr ⟨rfl, by decide, by decide⟩) .nil⟩
  have hscheme : isScheme "http" = true := by decide
  have huser : (some "a:b").all isUser = true := by decide
  have huser' : (some "a:c").all isUser = true := by decide
  exact SameURL.users hscheme huser huser' "proxy"

def withURL (user : String) : Config :=
  { defaults with
    outbounds := defaults.outbounds.map fun o =>
      { o with url := urlText "http" (some user) "proxy" } }

/-- The user of a URL in a direct outbound is shown. -/
theorem settings_view_shows_user :
    validate proxyURLs.toLibrary (withURL "a:b") = .ok () ∧
      validate proxyURLs.toLibrary (withURL "a:c") = .ok () ∧
      SameButSecrets (withURL "a:b") (withURL "a:c") ∧
      ∀ L : InstallLibrary,
        publicView L (fun _ => .ok ()) { storedNode with settings := some (withURL "a:b") } ≠
          publicView L (fun _ => .ok ()) { storedNode with settings := some (withURL "a:c") } := by
  have hscheme : isScheme "http" = true := by decide
  refine ⟨by decide +kernel, by decide +kernel, ⟨rfl, .inr rfl, .cons ⟨rfl, ?_⟩ .nil,
    .refl _⟩, fun L h => ?_⟩
  · exact SameURL.users hscheme (by decide) (by decide) "proxy"
  · have hurls := congrArg (fun r => r.1.map fun view => view.settings.outbounds.map (·.url)) h
    change some ["http://a:b@proxy"] = some ["http://a:c@proxy"] at hurls
    exact absurd hurls (by decide)

/-! ## Saving what is shown -/

variable (L : InstallLibrary)

def restoreURL (raw old : String) : String :=
  if raw = redactURL L old then old else raw

/-- The manifests of the file sets, and the paths in the text of one. -/
structure Manifests where
  get : String → Option String
  paths : String → Option (List String)

def prepareFiles (F : Manifests) (id : String) (c : Config) : Except String Config :=
  if id = "" then
    if c.masquerade.type = "file" ∧ c.masquerade.dir = "" then .error Hysteria.errMissingIndex
    else .ok c
  else if !Hysteria.validID id then .error "Некорректный ID набора файлов"
  else
    match F.get id with
    | none => .error "Набор файлов недоступен. Загрузите его заново"
    | some raw => do
      if c.masquerade.type = "file" then
        match F.paths raw with
        | none => throw "Не удалось прочитать список файлов набора"
        | some paths => Hysteria.requireIndex paths
      return { c with
        masquerade := { c.masquerade with dir := Filepath.join Hysteria.managedDirectory id } }

/-- The inner loop of `Save` over the stored outbounds. -/
def restoreOutbound (olds : List Outbound) (o : Outbound) : Outbound :=
  olds.foldl (fun o old =>
    if old.name = o.name ∧ old.type = o.type then
      { o with
        password := if o.password = "" then old.password else o.password
        url := restoreURL L o.url old.url }
    else o) o

/-- The settings that `Save` writes, from the submitted ones and those before. -/
def restore (c : NodeConfig) (endpointPort : ℤ) (s previous : Config) :
    Config :=
  { s with
    listenPort := if endpointPort ≠ c.endpointPort then endpointPort else previous.listenPort
    obfs := { s.obfs with
      password := if s.obfs.password = "" then previous.obfs.password else s.obfs.password }
    outbounds := s.outbounds.map (restoreOutbound L previous.outbounds)
    masquerade := { s.masquerade with
      url := restoreURL L s.masquerade.url previous.masquerade.url } }

/-- The row with the columns that only `Save` writes. -/
structure SavedConfig extends NodeConfig where
  obfsEnabled : Bool
  obfsType : String
  obfsPassword : String
  masqueradeURL : String

/-- The store during `Save`: whether the node is there, the sources of the configurations that are
issued anew, the version of the row, and the number of connections that are not deleted. -/
structure SaveStore where
  hasNode : Bool
  sources : Except String ℕ
  version : ℤ
  live : ℕ

/-- `Save`: the row that `UpdateHysteria2NodeConfig` has stored. -/
def save (F : Manifests) (S : SaveStore) (now : ℤ) (c : NodeConfig)
    (input : Input) : Except String SavedConfig := do
  let s ← prepareFiles F input.fileSetID input.settings
  ensure (domain input.endpointHost &&
      !(input.endpointPort < 1 || 65535 < input.endpointPort))
    "Укажите корректный публичный домен и порт 1–65535"
  match c.settings with
  | none => throw "Hysteria settings snapshot is missing"
  | some previous => do
    ensure (!(s.masquerade.type == "file" && input.fileSetID == "" &&
        (c.masqueradeFileSetID != "" || previous.masquerade.type != "file" ||
          s.masquerade.dir != previous.masquerade.dir)))
      "Загрузите файлы или ZIP для маскировки"
    let s := restore L c input.endpointPort s previous
    validate L.toLibrary s
    ensure S.hasNode "not found"
    let sources ← S.sources
    ensure (S.version == input.version && S.live == sources) "conflict"
    return {
      settings := some s
      masqueradeFileSetID := input.fileSetID
      configVersionMS := max now (input.version + 1)
      appliedConfigVersionMS := c.appliedConfigVersionMS
      configErrorID := ""
      endpointHost := input.endpointHost
      endpointPort := input.endpointPort
      obfsEnabled := s.obfs.type != "off"
      obfsType := s.obfs.type
      obfsPassword := s.obfs.password
      masqueradeURL := if s.masquerade.type = "proxy" then redactURL L s.masquerade.url else "" }

theorem restoreURL_redactURL (url : String) :
    restoreURL L (redactURL L url) url = url ∧ restoreURL L url url = url := by
  refine ⟨if_pos rfl, ?_⟩
  unfold restoreURL
  split <;> rfl

variable {olds : List Outbound}

theorem restoreOutbound_of_ne (h : o.name ∉ olds.map (·.name)) : restoreOutbound L olds o = o := by
  induction olds with
  | nil => rfl
  | cons old rest ih =>
    obtain ⟨hne, hrest⟩ := not_or.1 (mt List.mem_cons.2 h)
    rw [restoreOutbound, List.foldl_cons, if_neg fun heq => hne heq.1.symm]
    exact ih hrest

/-- Among outbounds with distinct names, each gets its own secrets back. -/
theorem restoreOutbound_redactOutbound (hnodup : (olds.map (·.name)).Nodup) (ho : o ∈ olds) :
    restoreOutbound L olds (redactOutbound L o) = o := by
  obtain ⟨l, l', rfl⟩ := List.append_of_mem ho
  rw [List.map_append, List.map_cons] at hnodup
  have hbefore : o.name ∉ l.map (·.name) := fun hmem =>
    (List.nodup_append.1 hnodup).2.2 _ hmem _ List.mem_cons_self rfl
  have hafter : o.name ∉ l'.map (·.name) :=
    (List.nodup_cons.1 (List.nodup_append.1 hnodup).2.1).1
  have hown : restoreOutbound L [o] (redactOutbound L o) = o := by
    obtain ⟨hhttp, hother⟩ := restoreURL_redactURL L o.url
    simp only [restoreOutbound, redactOutbound, List.foldl_cons, List.foldl_nil, and_self, if_true]
    split
    · rw [hhttp]
    · rw [hother]
  have hfirst := restoreOutbound_of_ne L (o := redactOutbound L o) hbefore
  calc restoreOutbound L (l ++ o :: l') (redactOutbound L o)
      = restoreOutbound L l' (restoreOutbound L [o]
          (restoreOutbound L l (redactOutbound L o))) := by
        simp only [restoreOutbound, List.foldl_append, List.foldl_cons, List.foldl_nil]
    _ = o := by rw [hfirst, hown, restoreOutbound_of_ne L hafter]

theorem dir_of_validateMasquerade {L : Library} {m : Masquerade}
    (h : validateMasquerade L m = .ok ()) (htype : m.type = "file") : m.dir ≠ "" := by
  unfold validateMasquerade at h
  simp only [htype] at h
  obtain ⟨_, hdir, -⟩ := Except.bind_eq_ok.1 h
  rintro hnil
  have habs := ensure_eq_ok.1 hdir
  rw [hnil] at habs
  exact absurd habs (by decide)

theorem restore_redact (c : NodeConfig) (s : Config) (h : validate L.toLibrary s = .ok ()) :
    restore L c c.endpointPort (redact L s) s = s := by
  have hnodup := (names_of_validateOutbounds (valid_parts h).outbounds).1
  have houtbounds : (s.outbounds.map (redactOutbound L)).map (restoreOutbound L s.outbounds) =
      s.outbounds := by
    rw [List.map_map]
    conv_rhs => rw [← List.map_id s.outbounds]
    exact List.map_congr_left fun o ho => restoreOutbound_redactOutbound L hnodup ho
  simp only [restore, redact, houtbounds, (restoreURL_redactURL L _).1, ne_eq, not_true_eq_false,
    if_false, if_true]

/-- The file set of the row is there with an index file, and the directory is its one. -/
def SetAtHand (F : Manifests) (c : NodeConfig) (s : Config) : Prop :=
  c.masqueradeFileSetID ≠ "" → Hysteria.validID c.masqueradeFileSetID = true ∧
    s.masquerade.dir = Filepath.join Hysteria.managedDirectory c.masqueradeFileSetID ∧
    ∃ raw paths, F.get c.masqueradeFileSetID = some raw ∧ F.paths raw = some paths ∧
      "index.html" ∈ paths

/-- No one has saved since the row was read, and every connection has its source. -/
def SaveStore.Undisturbed (S : SaveStore) (c : NodeConfig) : Prop :=
  S.hasNode = true ∧ S.version = c.configVersionMS ∧ S.sources = .ok S.live

theorem prepareFiles_redact {F : Manifests} {c : NodeConfig} {s : Config}
    (hvalid : validate L.toLibrary s = .ok ()) (hset : SetAtHand F c s) :
    prepareFiles F c.masqueradeFileSetID (redact L s) = .ok (redact L s) := by
  unfold prepareFiles
  split
  · rw [if_neg]
    exact fun h => dir_of_validateMasquerade (valid_parts hvalid).masquerade h.1 h.2
  · rename_i hid
    obtain ⟨hvalidID, hdir, raw, paths, hget, hpaths, hindex⟩ := hset hid
    have hindexed : Hysteria.requireIndex paths = .ok () := if_pos (by simpa using hindex)
    simp only [hvalidID, hget, hpaths, hindexed, ← hdir]
    split
    · cases ‹_›
    · split <;> rfl

/-- The input of the view, saved again, leaves the settings and the endpoint as they are. -/
theorem resubmission_changes_nothing {M : Type} (L : InstallLibrary)
    (manifest : String → Except String M) (F : Manifests) (S : SaveStore) (now : ℤ)
    (c : NodeConfig) (s : Config) (hs : c.settings = some s)
    (hvalid : validate L.toLibrary s = .ok ())
    (hhost : domain c.endpointHost = true)
    (hport : 1 ≤ c.endpointPort ∧ c.endpointPort ≤ 65535) (hset : SetAtHand F c s)
    (hstore : S.Undisturbed c) :
    ∃ view, (publicView L manifest c).1 = some view ∧
      ∃ saved, save L F S now c view.toInput = .ok saved ∧ saved.settings = some s ∧
        saved.endpointHost = c.endpointHost ∧ saved.endpointPort = c.endpointPort ∧
        saved.masqueradeFileSetID = c.masqueradeFileSetID := by
  have hview : ∃ view, (publicView L manifest c).1 = some view ∧ view.toInput =
      ⟨c.masqueradeFileSetID, c.configVersionMS, c.endpointHost, c.endpointPort, redact L s⟩ := by
    unfold publicView
    rw [hs]
    dsimp only
    split
    · exact ⟨_, rfl, rfl⟩
    · split <;> exact ⟨_, rfl, rfl⟩
  obtain ⟨view, hview, hinput⟩ := hview
  obtain ⟨hnode, hversion, hsources⟩ := hstore
  refine ⟨view, hview, ?_⟩
  rw [hinput]
  have hendpoint : (domain c.endpointHost &&
      !(c.endpointPort < 1 || 65535 < c.endpointPort)) = true := by
    simp only [hhost, Bool.true_and, Bool.not_eq_true', Bool.or_eq_false_iff,
      decide_eq_false_iff_not]
    omega
  -- without a file set the directory is the stored one
  have hkept : (!((redact L s).masquerade.type == "file" && c.masqueradeFileSetID == "" &&
      (c.masqueradeFileSetID != "" || s.masquerade.type != "file" ||
        (redact L s).masquerade.dir != s.masquerade.dir))) = true := by
    by_cases hid : c.masqueradeFileSetID = "" <;>
      by_cases htype : s.masquerade.type = "file" <;> simp [redact, hid, htype]
  simp only [save, prepareFiles_redact L hvalid hset, hs, ensure, hendpoint, hkept,
    restore_redact L c s hvalid, hvalid, hnode, hsources, hversion, beq_self_eq_true,
    Bool.and_self, if_true, bind, Except.bind, pure, Except.pure]
  exact ⟨_, rfl, rfl, rfl, rfl, rfl⟩

/-- The id of a file set. -/
def storedSet : String := "0123456789abcdef0123456789abcdef0123456789abcdef0123456789abcdef"

/-- A row with a password, a proxy whose URL has a user, and a file set. -/
def storedProxy : NodeConfig :=
  { storedNode with
    masqueradeFileSetID := storedSet
    settings := some { withProxy "secret" "http://a:b@proxy" with
      masquerade := { defaults.masquerade with
        type := "file"
        dir := Filepath.join Hysteria.managedDirectory storedSet } } }

/-- The one set, with its index. -/
def storedManifests : Manifests where
  get id := if id = storedSet then some "manifest" else none
  paths raw := if raw = "manifest" then some ["index.html"] else none

theorem resubmission_keeps_proxy :
    ∃ view, (publicView proxyURLs (fun _ => .ok ()) storedProxy).1 = some view ∧
      ∃ saved, save proxyURLs storedManifests ⟨true, .ok 0, 1, 0⟩ 5 storedProxy
          view.toInput = .ok saved ∧ saved.settings = storedProxy.settings ∧
        saved.endpointHost = "node.example" ∧ saved.endpointPort = 443 ∧
        saved.masqueradeFileSetID = storedSet :=
  resubmission_changes_nothing proxyURLs (fun _ => .ok ()) storedManifests _ 5 storedProxy _ rfl
    (by decide +kernel) (by decide +kernel) (by decide)
    (fun _ => ⟨by decide +kernel, rfl, "manifest", ["index.html"], by decide +kernel,
      by decide +kernel, List.mem_singleton_self _⟩) ⟨rfl, rfl, rfl⟩

end LazGate.HysteriaSettings
