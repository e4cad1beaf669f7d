import LazGate.Hysteria.Settings

/-!
# The grammar of accepted Hysteria settings

What `Validate` says about the texts of the settings that it accepts: modes, names, lists of ports
and addresses with a port.
-/

namespace LazGate.Hy2config

/-! ## The grammar -/

/-- The decimal digits of a port. -/
def IsPort (ds : List Char) (n : ℕ) : Prop := atoi.digits ds = some n ∧ 1 ≤ n ∧ n ≤ 65535

def IsPortRange (s : List Char) : Prop :=
  (∃ n, IsPort s n) ∨ ∃ a b m n, s = a ++ '-' :: b ∧ IsPort a m ∧ IsPort b n ∧ m ≤ n

def IsPortList (v : String) : Prop := v = "all" ∨ ∀ s ∈ v.toList.splitOn ',', IsPortRange s

def IsHostPort (v : String) : Prop :=
  ∃ host port n, Net.splitHostPort v = some (host, port) ∧ IsPort port.toList n

/-- The addresses with a port that the settings need. -/
def Config.hostPorts (c : Config) : List String :=
  (if c.resolver.type = "system" then [] else [c.resolver.addr]) ++
    [c.masquerade.listenHTTP, c.masquerade.listenHTTPS].filter (· ≠ "") ++
    (c.outbounds.filter (·.type = "socks5")).map (·.addr)

structure InGrammar (c : Config) : Prop where
  modes : ∀ o ∈ c.outbounds, o.type = "direct" → o.mode ∈ ["auto", "4", "6", "46", "64"]
  named : ∀ o ∈ c.outbounds, o.name ≠ ""
  names : (c.outbounds.map (·.name)).Nodup
  ports : IsPortList c.sniff.tcpPorts ∧ IsPortList c.sniff.udpPorts
  hostPorts : ∀ v ∈ c.hostPorts, IsHostPort v

/-- No mode has a bar in it, no port a plus sign before it, and no list of ports white space. -/
structure Bare (c : Config) : Prop where
  modes : ∀ o ∈ c.outbounds, o.type = "direct" → '|' ∉ o.mode.toList
  ports : ∀ v ∈ [c.sniff.tcpPorts, c.sniff.udpPorts],
    v.toList.all (fun ch => ch != '+' && !isSpace ch) = true
  hostPorts : ∀ v ∈ c.hostPorts, ∀ host port, Net.splitHostPort v = some (host, port) →
    port.toList.head? ≠ some '+'

/-! ## What the checks say -/

theorem mem_of_mem_part {sep c : Char} {cs part : List Char} (hpart : part ∈ cs.splitOn sep)
    (hc : c ∈ part) : c ∈ cs := by
  induction cs generalizing part with
  | nil =>
    rw [List.splitOn_nil, List.mem_singleton] at hpart
    exact hpart ▸ hc
  | cons a cs ih =>
    rw [List.splitOn_cons_eq_if_modifyHead] at hpart
    split at hpart
    · rcases List.mem_cons.1 hpart with rfl | hpart
      · cases hc
      · exact List.mem_cons_of_mem a (ih hpart hc)
    · obtain ⟨p, ps, hps⟩ := List.exists_cons_of_ne_nil (List.splitOn_ne_nil sep cs)
      rw [hps, List.modifyHead_cons] at hpart
      rw [hps] at ih
      rcases List.mem_cons.1 hpart with rfl | hpart
      · rcases List.mem_cons.1 hc with rfl | hc
        · exact List.mem_cons_self
        · exact List.mem_cons_of_mem a (ih List.mem_cons_self hc)
      · exact List.mem_cons_of_mem a (ih (List.mem_cons_of_mem p hpart) hc)

/-- A text between two bars of the list of modes, without a bar, is a mode. -/
theorem mode_of_infix {mode : String}
    (h : ("|" ++ mode ++ "|").toList <:+: "|auto|4|6|46|64|".toList) (hbar : '|' ∉ mode.toList) :
    mode ∈ ["auto", "4", "6", "46", "64"] := by
  have hmem : mode.toList ∈ "|auto|4|6|46|64|".toList.splitOn '|' := by
    obtain ⟨before, after, heq⟩ := h
    rw [← heq]
    simp [List.splitOn_append_cons_self, List.splitOn_append_cons_self_of_not_mem hbar]
  have hparts : "|auto|4|6|46|64|".toList.splitOn '|' =
      ["", "auto", "4", "6", "46", "64", ""].map String.toList := by decide +kernel
  rw [hparts, List.mem_map] at hmem
  obtain ⟨part, hpart, heq⟩ := hmem
  obtain rfl := String.toList_inj.1 heq
  simp only [List.mem_cons, List.not_mem_nil, or_false] at hpart
  rcases hpart with rfl | rfl | rfl | rfl | rfl | rfl | rfl
  case inl | inr.inr.inr.inr.inr.inr => exact absurd h (by decide)
  all_goals decide

theorem isPort_of_atoi {s : String} {n : ℤ} (h : atoi s = some n) (hn : 1 ≤ n) (hn' : n ≤ 65535)
    (hsign : s.toList.head? ≠ some '+') : ∃ m : ℕ, n = m ∧ IsPort s.toList m := by
  unfold atoi at h
  split at h
  · rename_i ds _
    obtain ⟨m, hm, rfl⟩ := Option.map_eq_some_iff.1 h
    obtain ⟨k, -, hk⟩ := Option.bind_eq_some_iff.1 hm
    have hcast : (k : ℤ) = m := Option.some.inj hk
    omega
  · rename_i ds heq
    simp [heq] at hsign
  · obtain ⟨m, hm, rfl⟩ := Option.map_eq_some_iff.1 h
    exact ⟨m, rfl, hm, by simpa using hn, by simpa using hn'⟩

theorem IsPort.plain {ds : List Char} {n : ℕ} (h : IsPort ds n) :
    ∀ ch ∈ ds, ch ≠ '+' ∧ isSpace ch = false := by
  intro ch hch
  have hdigit : ch.isDigit = true := (isDigit_of_digits h.1).2 ch hch
  refine ⟨?_, isSpace_of_isDigit hdigit⟩
  rintro rfl
  cases hdigit

theorem IsPortRange.plain {s : List Char} (h : IsPortRange s) :
    ∀ ch ∈ s, ch ≠ '+' ∧ isSpace ch = false := by
  rcases h with ⟨n, h⟩ | ⟨a, b, m, n, rfl, ha, hb, -⟩
  · exact h.plain
  · intro ch hch
    rcases List.mem_append.1 hch with hch | hch
    · exact ha.plain ch hch
    · rcases List.mem_cons.1 hch with rfl | hch
      · decide
      · exact hb.plain ch hch

theorem IsPortList.plain {v : String} (h : IsPortList v) :
    v.toList.all (fun ch => ch != '+' && !isSpace ch) = true := by
  rcases h with rfl | h
  · decide
  · refine List.all_eq_true.2 fun ch hch => ?_
    rcases mem_of_splitOn ',' hch with rfl | ⟨part, hpart, hch⟩
    · decide
    · simpa using (h part hpart).plain ch hch

variable {L : Library} {v : String}

theorem isHostPort_of_hostPort (h : hostPort v = .ok ())
    (hsign : ∀ host port, Net.splitHostPort v = some (host, port) → port.toList.head? ≠ some '+') :
    IsHostPort v := by
  unfold hostPort at h
  split at h
  · rename_i n hn
    obtain ⟨⟨host, port⟩, hsplit, hport⟩ := Option.bind_eq_some_iff.1 hn
    split at h
    · cases h
    · obtain ⟨m, -, hm⟩ := isPort_of_atoi hport (by omega) (by omega) (hsign host port hsplit)
      exact ⟨host, port, m, hsplit, hm⟩
  · cases h

theorem IsHostPort.plain (h : IsHostPort v) (host port : String)
    (hsplit : Net.splitHostPort v = some (host, port)) : port.toList.head? ≠ some '+' := by
  obtain ⟨host', port', n, hsplit', hport⟩ := h
  rw [hsplit] at hsplit'
  obtain ⟨rfl, rfl⟩ := Prod.mk.inj (Option.some.inj hsplit')
  exact fun hhead => (hport.plain '+' (List.mem_of_mem_head? hhead)).1 rfl

/-- The first of the ports, and what follows it. -/
theorem isPort_of_portsAscend {p : List Char} {rest : List (List Char)} {last : ℤ}
    (h : portsAscend last (p :: rest) = true) (hsign : '+' ∉ p) :
    ∃ n : ℕ, IsPort p n ∧ last ≤ n ∧ portsAscend n rest = true := by
  unfold portsAscend at h
  split at h
  · rename_i n hn
    simp only [Bool.and_eq_true, Bool.not_eq_true', Bool.or_eq_false_iff, decide_eq_false_iff_not,
      not_lt] at h
    obtain ⟨m, rfl, hm⟩ := isPort_of_atoi hn h.1.1.1 h.1.1.2 fun hhead => by
      rw [String.toList_ofList] at hhead
      exact hsign (List.mem_of_mem_head? hhead)
    exact ⟨m, by simpa using hm, h.1.2, h.2⟩
  · cases h

theorem isPortList_of_ports (h : ports v = .ok ())
    (hplain : v.toList.all (fun ch => ch != '+' && !isSpace ch) = true) : IsPortList v := by
  unfold ports at h
  split at h
  · rename_i hall
    exact .inl (by simpa using hall)
  · split at h
    · rename_i hitems
      refine .inr fun s hs => ?_
      have hpart : ∀ ch ∈ s, ch ≠ '+' ∧ isSpace ch = false := fun ch hch => by
        simpa using List.all_eq_true.1 hplain ch (mem_of_mem_part hs hch)
      have hitem := List.all_eq_true.1 hitems s hs
      have htrim : trimSpace (String.ofList s) = String.ofList s :=
        trimSpace_of_forall fun ch hch => (hpart ch (by simpa using hch)).2
      rw [htrim, String.toList_ofList] at hitem
      simp only [Bool.and_eq_true, decide_eq_true_eq] at hitem
      have hjoin : ['-'].intercalate (s.splitOn '-') = s := List.intercalate_splitOn '-'
      have hsign : ∀ p ∈ s.splitOn '-', '+' ∉ p := fun p hp hmem =>
        (hpart '+' (mem_of_mem_part hp hmem)).1 rfl
      -- one port, or two with a hyphen between them
      rcases hparts : s.splitOn '-' with _ | ⟨a, _ | ⟨b, _ | ⟨c, rest⟩⟩⟩
      · exact absurd hparts (List.splitOn_ne_nil '-' s)
      · rw [hparts] at hitem hjoin hsign
        obtain ⟨n, hn, -⟩ := isPort_of_portsAscend hitem.2 (hsign a (by simp))
        rw [← hjoin]
        exact .inl ⟨n, by simpa using hn⟩
      · rw [hparts] at hitem hjoin hsign
        obtain ⟨m, hm, -, hrest⟩ := isPort_of_portsAscend hitem.2 (hsign a (by simp))
        obtain ⟨n, hn, hle, -⟩ := isPort_of_portsAscend hrest (hsign b (by simp))
        refine .inr ⟨a, b, m, n, ?_, hm, hn, by exact_mod_cast hle⟩
        rw [← hjoin]
        simp [List.intercalate]
      · rw [hparts] at hitem
        simp at hitem
    · cases h

theorem hostPort_of_validateResolver {r : Resolver} (h : validateResolver r = .ok ())
    (hr : r.type ≠ "system") : hostPort r.addr = .ok () := by
  unfold validateResolver at h
  split at h
  · contradiction
  case h_6 => cases h
  all_goals
    cases hport : hostPort r.addr with
    | ok _ => rfl
    | error e => simp [hport, Except.mapError] at h

/-- A loop of checks that ends well has made each of them. -/
theorem ok_of_forIn {α : Type} {p : α → Bool} {check : α → Except String Unit} {l : List α}
    {u : PUnit} (h : forIn l PUnit.unit (fun a _ =>
      if p a = true then do
        check a
        pure (.yield PUnit.unit)
      else pure (.yield PUnit.unit)) = (.ok u : Except String PUnit)) :
    ∀ a ∈ l, p a = true → check a = .ok () := by
  induction l with
  | nil => simp
  | cons a l ih =>
    rw [List.forIn_cons] at h
    obtain ⟨s, hs, h⟩ := Except.bind_eq_ok.1 h
    have hfirst : s = .yield PUnit.unit ∧ (p a = true → check a = .ok ()) := by
      split at hs
      · obtain ⟨_, hcheck, hs⟩ := Except.bind_eq_ok.1 hs
        exact ⟨(Except.ok.inj hs).symm, fun _ => hcheck⟩
      · exact ⟨(Except.ok.inj hs).symm, fun hp => absurd hp ‹_›⟩
    rw [hfirst.1] at h
    exact List.forall_mem_cons.2 ⟨hfirst.2, ih h⟩

theorem hostPort_of_validateMasquerade {m : Masquerade} (h : validateMasquerade L m = .ok ())
    (hv : v ∈ [m.listenHTTP, m.listenHTTPS]) (hne : v ≠ "") : hostPort v = .ok () := by
  have hloop : ∃ u, forIn [m.listenHTTP, m.listenHTTPS] PUnit.unit (fun v _ =>
      if (v != "") = true then do
        (hostPort v).mapError ("Адрес маскировки: " ++ ·)
        pure (.yield PUnit.unit)
      else pure (.yield PUnit.unit)) = (.ok u : Except String PUnit) := by
    unfold validateMasquerade at h
    split at h <;> dsimp only at h <;> split at h
    all_goals first
      | cases h
      | obtain ⟨_, -, h⟩ := Except.bind_eq_ok.1 h
        obtain ⟨u, hu, -⟩ := Except.bind_eq_ok.1 h
        exact ⟨u, hu⟩
      | obtain ⟨_, -, h⟩ := Except.bind_eq_ok.1 h
        obtain ⟨_, -, h⟩ := Except.bind_eq_ok.1 h
        obtain ⟨u, hu, -⟩ := Except.bind_eq_ok.1 h
        exact ⟨u, hu⟩
  obtain ⟨u, hu⟩ := hloop
  have hmap := ok_of_forIn (p := (· != "")) hu v hv (by simpa using hne)
  cases hport : hostPort v with
  | ok _ => rfl
  | error e => simp [hport, Except.mapError] at hmap

theorem InGrammar.bare {c : Config} (h : InGrammar c) : Bare c where
  modes o ho htype := by
    have hmode := h.modes o ho htype
    simp only [List.mem_cons, List.not_mem_nil, or_false] at hmode
    rcases hmode with hmode | hmode | hmode | hmode | hmode <;> rw [hmode] <;> decide
  ports := List.forall_mem_cons.2 ⟨h.ports.1.plain, List.forall_mem_singleton.2 h.ports.2.plain⟩
  hostPorts v hv := (h.hostPorts v hv).plain

theorem Bare.inGrammar {c : Config} (hbare : Bare c) (h : validate L c = .ok ()) :
    InGrammar c := by
  have hparts := valid_parts h
  obtain ⟨hnames, hnamed⟩ := names_of_validateOutbounds hparts.outbounds
  refine ⟨fun o ho htype => ?_, fun o ho => (hnamed o ho).1, hnames, ⟨?_, ?_⟩, fun v hv => ?_⟩
  · have hvalid := validOutbound_of_mem hparts.outbounds o ho
    unfold validateOutbound at hvalid
    simp only [htype] at hvalid
    obtain ⟨_, hmode, -⟩ := Except.bind_eq_ok.1 hvalid
    exact mode_of_infix (of_decide_eq_true (ensure_eq_ok.1 hmode)) (hbare.modes o ho htype)
  · exact isPortList_of_ports hparts.tcpPorts (hbare.ports _ (by simp))
  · exact isPortList_of_ports hparts.udpPorts (hbare.ports _ (by simp))
  · refine isHostPort_of_hostPort ?_ (hbare.hostPorts v hv)
    simp only [Config.hostPorts, List.mem_append] at hv
    rcases hv with (hv | hv) | hv
    · split at hv
      · cases hv
      · rename_i hr
        rw [List.mem_singleton.1 hv]
        exact hostPort_of_validateResolver hparts.resolver hr
    · obtain ⟨hmem, hne⟩ := List.mem_filter.1 hv
      exact hostPort_of_validateMasquerade hparts.masquerade hmem (of_decide_eq_true hne)
    · obtain ⟨o, ho, rfl⟩ := List.mem_map.1 hv
      obtain ⟨ho, htype⟩ := List.mem_filter.1 ho
      have hvalid := validOutbound_of_mem hparts.outbounds o ho
      unfold validateOutbound at hvalid
      simpa only [of_decide_eq_true htype] using hvalid

/-- Accepted settings are in the grammar just when their texts are bare. -/
theorem accepted_settings_in_grammar_iff (L : Library) (c : Config) (h : validate L c = .ok ()) :
    InGrammar c ↔ Bare c := ⟨InGrammar.bare, fun hbare => hbare.inGrammar h⟩

/-- The default settings, with another mode of the outbound and another list of ports. -/
def sampleSettings (mode tcpPorts : String) : Config :=
  { defaults with
    outbounds := defaults.outbounds.map ({ · with mode := mode })
    sniff := { defaults.sniff with tcpPorts := tcpPorts } }

theorem accepted_settings_in_grammar_defaults :
    InGrammar (sampleSettings "46" "80,443,8000-9000") :=
  (accepted_settings_in_grammar_iff smallLibrary _ (by decide +kernel)).2
    ⟨by decide +kernel, by decide +kernel, by simp [Config.hostPorts, sampleSettings, defaults]⟩

/-- Two modes with a bar between them are accepted as a mode, and a port with a sign as a port. -/
theorem settings_outside_grammar :
    validate smallLibrary (sampleSettings "auto|4" "+80") = .ok () ∧
      ¬ InGrammar (sampleSettings "auto|4" "+80") :=
  ⟨by decide +kernel, fun h => absurd (h.modes _ (.head _) rfl) (by decide)⟩

end LazGate.Hy2config
