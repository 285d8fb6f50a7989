import Mathlib.Data.List.Induction
import TelemetryRelay.Broker.Address
import TelemetryRelay.Proofs.Server.Startup

/-!
# Which configurations are accepted

A configuration is accepted exactly if it is well-formed (`ServerConfig.WellFormed`), and a
configuration that is refused is refused for its first fault (`ServerConfig.FirstFault`). The two
searches for something that is declared twice go through a list from the left, so what they report
is the first item that repeats an earlier one (`FirstRepeat`).

* `exists_firstRepeat`: a list of which two items share a key has a first such item.
* `firstRepeatedKey_eq`, `firstClash_eq`: the two searches find it.
* `FirstFault.validate_eq`, `exists_fault`: a fault is what is reported, and there is one unless the
  configuration is well-formed.
* `validate_exact`: **validation accepts the well-formed configurations and names the first fault of
  any other**, and what is accepted can be connected to.
-/

namespace TelemetryRelay

/-! ### The first item that repeats another -/

/-- **The first item of a list that has the key of an earlier one**; `before` are the items before
it. -/
structure FirstRepeat {α β : Type} (key : α → β) (l before : List α) (x : α) : Prop where
  split : ∃ after, l = before ++ x :: after
  nodup : (before.map key).Nodup
  repeats : key x ∈ before.map key

/-- Where two items share a key, one of them is the first to do so. -/
theorem exists_firstRepeat {α β : Type} {key : α → β} {l : List α} (h : ¬ (l.map key).Nodup) :
    ∃ before x, FirstRepeat key l before x := by
  induction l using List.reverseRecOn with
  | nil => exact absurd List.nodup_nil h
  | append_singleton l x ih =>
    by_cases hl : (l.map key).Nodup
    · -- the repetition must be the last item's
      refine ⟨l, x, ⟨[], rfl⟩, hl, ?_⟩
      by_contra hx
      refine h ?_
      rw [List.map_append, List.map_singleton, ← List.concat_eq_append]
      exact hl.concat hx
    · obtain ⟨before, y, ⟨after, rfl⟩, hn, hy⟩ := ih hl
      exact ⟨before, y, ⟨after ++ [x], by simp⟩, hn, hy⟩

theorem FirstRepeat.map {α β γ : Type} {key : β → γ} {f : α → β} {l before : List α} {x : α}
    (h : FirstRepeat (fun a => key (f a)) l before x) :
    FirstRepeat key (l.map f) (before.map f) (f x) := by
  obtain ⟨⟨after, rfl⟩, hn, hx⟩ := h
  have hkeys : (before.map f).map key = before.map fun a => key (f a) := List.map_map
  refine ⟨⟨after.map f, by simp⟩, ?_, ?_⟩
  · rw [hkeys]; exact hn
  · rw [hkeys]; exact hx

/-- The search passes over keys that repeat none. -/
theorem firstRepeatedKey_append {before : List String} (rest : List String) {seen : List String}
    (hn : before.Nodup) (hs : ∀ k ∈ before, k ∉ seen) :
    firstRepeatedKey seen (before ++ rest) = firstRepeatedKey (before.reverse ++ seen) rest := by
  induction before generalizing seen with
  | nil => rfl
  | cons key before ih =>
    obtain ⟨hkey, hn⟩ := List.nodup_cons.1 hn
    have hnew : key ∉ seen := hs key List.mem_cons_self
    rw [List.cons_append, firstRepeatedKey, if_neg (by simpa using hnew), ih hn]
    · simp
    · intro k hk hm
      rcases List.mem_cons.1 hm with rfl | hm
      · exact hkey hk
      · exact hs k (List.mem_cons_of_mem _ hk) hm

/-- **The search finds the first key that repeats another.** -/
theorem firstRepeatedKey_eq {α : Type} {key : α → String} {l before : List α} {x : α}
    (h : FirstRepeat key l before x) : firstRepeatedKey [] (l.map key) = some (key x) := by
  obtain ⟨⟨after, rfl⟩, hn, hx⟩ := h
  rw [List.map_append, List.map_cons, firstRepeatedKey_append _ hn (fun _ _ => List.not_mem_nil),
    firstRepeatedKey, if_pos (by simpa using hx)]

/-- The search passes over declarations of channels that were not declared before. -/
theorem firstClash_append {before : List Declaration} (rest : List Declaration)
    {seen : List Declaration} (hn : (before.map (·.channel)).Nodup)
    (hs : ∀ d ∈ before, d.channel ∉ seen.map (·.channel)) :
    firstClash seen (before ++ rest) = firstClash (before.reverse ++ seen) rest := by
  induction before generalizing seen with
  | nil => rfl
  | cons d before ih =>
    obtain ⟨hd, hn⟩ := List.nodup_cons.1 hn
    have hnew := (find_channel_eq_none_iff seen d.channel).2 (hs d List.mem_cons_self)
    rw [List.cons_append, firstClash, hnew]
    rw [ih hn]
    · simp
    · intro x hx hm
      rcases List.mem_cons.1 hm with hxd | hm
      · exact hd (List.mem_map.2 ⟨x, hx, hxd⟩)
      · exact hs x (List.mem_cons_of_mem _ hx) hm

/-- **The search finds the first declaration that repeats another**, and the one it repeats. -/
theorem firstClash_eq {l before : List Declaration} {first second : Declaration}
    (h : FirstRepeat (·.channel) l before second) (hf : first ∈ before)
    (hc : first.channel = second.channel) : firstClash [] l = some (first, second) := by
  obtain ⟨⟨after, rfl⟩, hn, -⟩ := h
  rw [firstClash_append _ hn (fun _ _ => List.not_mem_nil), List.append_nil, firstClash]
  -- only one declaration before it has the channel
  have hn' : (before.reverse.map (·.channel)).Nodup := by
    rw [List.map_reverse, List.nodup_reverse]
    exact hn
  have hfind := (find?_key_eq_some_iff hn').2 ⟨List.mem_reverse.2 hf, hc⟩
  rw [hfind]

namespace ServerConfig

/-! ### Accepted and refused -/

/-- Every declared measurement with its dictionary, in order. -/
def declared (config : ServerConfig) : List (Dictionary × Measurement) :=
  config.dictionaries.flatMap fun d => d.measurements.map (d, ·)

/-- Whether a text can be the name of a host: something is there, and no blank. -/
def IsHostName (host : String) : Prop :=
  Text.NonBlank host ∧ ∀ c ∈ host.toList, Text.isBlank c = false

/-- Nothing is declared twice. -/
structure Distinct (config : ServerConfig) : Prop where
  keys_nodup : (config.dictionaries.map (·.key)).Nodup
  channels_nodup : (config.declared.map (·.2.channel)).Nodup

/-- There is a place to listen at, for each of the two listeners. -/
structure Listens (config : ServerConfig) : Prop extends config.Distinct where
  host : IsHostName config.host
  port_ne_zero : config.port ≠ 0
  wssPort_ne_zero : config.wssPort ≠ 0
  ports_ne : config.port ≠ config.wssPort

/-- **A well-formed configuration.** -/
structure WellFormed (config : ServerConfig) : Prop extends config.Listens where
  broker : ∃ url, config.brokerEndpoint = .ok url
  archive : ∃ url, config.history.url = .ok url

/-- **The first fault of a configuration**, and what is reported of it. Each fault is looked for
after those above it. -/
inductive FirstFault (config : ServerConfig) : ConfigError → Prop where
  | key {before : List Dictionary} {d : Dictionary}
    (hd : FirstRepeat Dictionary.key config.dictionaries before d) :
    FirstFault config (.duplicateDictionary d.key)
  | channel {before : List (Dictionary × Measurement)} {first second : Dictionary × Measurement}
    (hk : (config.dictionaries.map (·.key)).Nodup)
    (hs : FirstRepeat (·.2.channel) config.declared before second) (hf : first ∈ before)
    (hc : first.2.channel = second.2.channel) :
    FirstFault config (.duplicateChannel second.2.channel first.1.key second.1.key)
  | host (hd : config.Distinct) (hh : ¬ IsHostName config.host) :
    FirstFault config (.invalidEndpoint .host config.host .notHostName)
  | port (hd : config.Distinct) (hh : IsHostName config.host) (hp : config.port = 0) :
    FirstFault config (.invalidEndpoint .port "0" .zeroPort)
  | wssPort (hd : config.Distinct) (hh : IsHostName config.host) (hp : config.port ≠ 0)
    (hw : config.wssPort = 0) :
    FirstFault config (.invalidEndpoint .wssPort "0" .zeroPort)
  | ports (hd : config.Distinct) (hh : IsHostName config.host) (hp : config.port ≠ 0)
    (hw : config.wssPort ≠ 0) (he : config.port = config.wssPort) :
    FirstFault config (.portConflict config.port)
  | broker {fault : EndpointFault} (hl : config.Listens)
    (hb : config.brokerEndpoint = .error (.invalidEndpoint .broker config.brokerUrl fault)) :
    FirstFault config (.invalidEndpoint .broker config.brokerUrl fault)
  | archive {fault : EndpointFault} {url : Url} (hl : config.Listens)
    (hb : config.brokerEndpoint = .ok url)
    (ha : config.history.url = .error (.invalidEndpoint .history config.history.host fault)) :
    FirstFault config (.invalidEndpoint .history config.history.host fault)

variable {config : ServerConfig} {e : ConfigError}

/-! ### The single checks -/

theorem declarations_eq :
    config.declarations = config.declared.map fun p => ⟨p.2.channel, p.1.key⟩ := by
  simp [declarations, declared, Dictionary.channels, List.map_flatMap, Function.comp_def]

theorem channels_eq : config.channels = config.declared.map (·.2.channel) := by
  rw [← declarations_channels, declarations_eq, List.map_map]
  rfl

theorem isHostName_iff {host : String} :
    IsHostName host ↔ (Text.isBlankText host || Text.hasBlank host) = false := by
  simp [IsHostName, Text.NonBlank, Text.isBlankText, Text.hasBlank]

theorem checkHost_eq_ok_iff : config.checkHost = .ok () ↔ IsHostName config.host := by
  rw [isHostName_iff, checkHost]
  cases Text.isBlankText config.host || Text.hasBlank config.host <;> simp

theorem checkPorts_eq_ok_iff : config.checkPorts = .ok () ↔
    config.port ≠ 0 ∧ config.wssPort ≠ 0 ∧ config.port ≠ config.wssPort := by
  unfold checkPorts
  split
  · simp_all
  split
  · simp_all
  split <;> simp_all

/-- A broker that has no endpoint is refused by its field and its text. -/
theorem brokerEndpoint_error (h : config.brokerEndpoint = .error e) :
    ∃ fault, e = .invalidEndpoint .broker config.brokerUrl fault := by
  unfold brokerEndpoint at h
  repeat' split at h
  all_goals cases h
  all_goals exact ⟨_, rfl⟩

/-- An archive that has no URL is refused by its field and its text. -/
theorem history_url_error {target : HistoryTarget} (h : target.url = .error e) :
    ∃ fault, e = .invalidEndpoint .history target.host fault := by
  simp only [HistoryTarget.url] at h
  cases hparse : Url.parse
      (if namesScheme target.host.toList then target.host else "http://" ++ target.host) with
  | error fault =>
    rw [hparse] at h
    cases h
    exact ⟨_, rfl⟩
  | ok url =>
    rw [hparse] at h
    simp only at h
    split at h
    · cases h; exact ⟨_, rfl⟩
    · split at h <;> cases h

/-- The endpoint of a broker has a host. -/
theorem exists_host {url : Url} (h : config.brokerEndpoint = .ok url) :
    ∃ host, url.host = some host := by
  simp only [brokerEndpoint] at h
  split at h
  · cases h
  split at h
  · cases h
  split at h
  · cases h
  · rename_i hhost
    cases h
    exact Option.ne_none_iff_exists'.1 (by simpa using hhost)

/-- **The connection to a broker goes to its endpoint**: there is an address exactly if there is an
endpoint, and it is the endpoint's host, with its port or the port of brokers. -/
theorem address_eq_ok_iff {address : String × Nat} :
    Broker.address config.brokerUrl = .ok address ↔
      ∃ url host, config.brokerEndpoint = .ok url ∧ url.host = some host ∧
        address = (host.text, url.port.getD brokerPort) := by
  unfold Broker.address brokerEndpoint
  cases Url.parse config.brokerUrl with
  | error fault => simp
  | ok url =>
    cases hs : brokerSchemes.contains url.scheme with
    | false => simp only [hs]; simp
    | true =>
      simp only [hs]
      cases hh : url.host with
      | none => simp
      | some host =>
        constructor
        · intro h; cases h; exact ⟨url, host, by simp, hh, rfl⟩
        · rintro ⟨_, host', hu, hh', rfl⟩
          cases hu
          rw [hh] at hh'
          cases hh'
          rfl

/-! ### Validation -/

theorem checkKeys_of_nodup (h : (config.dictionaries.map (·.key)).Nodup) :
    config.checkKeys = .ok () :=
  checkKeys_eq_ok_iff.2 h

theorem checkChannels_of_nodup (h : (config.declared.map (·.2.channel)).Nodup) :
    config.checkChannels = .ok () := by
  rw [checkChannels_eq_ok_iff, channels_eq]
  exact h

theorem Listens.checkPorts (h : config.Listens) : config.checkPorts = .ok () :=
  checkPorts_eq_ok_iff.2 ⟨h.port_ne_zero, h.wssPort_ne_zero, h.ports_ne⟩

/-- **Exactly the well-formed configurations are accepted.** -/
theorem accepts_iff : config.validate = .ok () ↔ config.WellFormed := by
  rw [validate_eq_ok_iff, checkKeys_eq_ok_iff, checkChannels_eq_ok_iff, channels_eq,
    checkHost_eq_ok_iff, checkPorts_eq_ok_iff]
  constructor
  · rintro ⟨hk, hc, hh, ⟨hp, hw, hne⟩, hb, ha⟩
    exact ⟨⟨⟨hk, hc⟩, hh, hp, hw, hne⟩, hb, ha⟩
  · rintro ⟨⟨⟨hk, hc⟩, hh, hp, hw, hne⟩, hb, ha⟩
    exact ⟨hk, hc, hh, ⟨hp, hw, hne⟩, hb, ha⟩

/-- Where nothing is declared twice, the host and what comes after it are checked. -/
theorem Distinct.validate_eq (h : config.Distinct) : config.validate = (do
    config.checkHost
    config.checkPorts
    let _ ← config.brokerEndpoint
    let _ ← config.history.url
    return ()) := by
  unfold validate
  rw [checkKeys_of_nodup h.keys_nodup, checkChannels_of_nodup h.channels_nodup]
  rfl

/-- Where there is a place to listen at, the two endpoints are checked. -/
theorem Listens.validate_eq (h : config.Listens) : config.validate = (do
    let _ ← config.brokerEndpoint
    let _ ← config.history.url
    return ()) := by
  rw [h.toDistinct.validate_eq, checkHost_eq_ok_iff.2 h.host, h.checkPorts]
  rfl

/-- **The first fault is what validation reports.** -/
theorem FirstFault.validate_eq (h : FirstFault config e) : config.validate = .error e := by
  cases h with
  | key hd =>
    unfold validate checkKeys dictionaryKeys
    rw [firstRepeatedKey_eq hd]
    rfl
  | @channel before first second hk hs hf hc =>
    have hclash : firstClash [] config.declarations =
        some (⟨first.2.channel, first.1.key⟩, ⟨second.2.channel, second.1.key⟩) := by
      rw [declarations_eq]
      exact firstClash_eq (FirstRepeat.map hs) (List.mem_map_of_mem hf) hc
    unfold validate checkChannels
    rw [checkKeys_of_nodup hk, hclash]
    rfl
  | host hd hh =>
    rw [hd.validate_eq, checkHost, if_pos]
    · rfl
    · rw [isHostName_iff, Bool.not_eq_false] at hh
      exact hh
  | port hd hh hp =>
    rw [hd.validate_eq, checkHost_eq_ok_iff.2 hh, ServerConfig.checkPorts, if_pos hp]
    rfl
  | wssPort hd hh hp hw =>
    rw [hd.validate_eq, checkHost_eq_ok_iff.2 hh, ServerConfig.checkPorts, if_neg hp, if_pos hw]
    rfl
  | ports hd hh hp hw he =>
    rw [hd.validate_eq, checkHost_eq_ok_iff.2 hh, ServerConfig.checkPorts, if_neg hp, if_neg hw,
      if_pos he]
    rfl
  | broker hl hb =>
    rw [hl.validate_eq, hb]
    rfl
  | archive hl hb ha =>
    rw [hl.validate_eq, hb, ha]
    rfl

/-- **A configuration that is not well-formed has a first fault.** -/
theorem exists_firstFault (h : ¬ config.WellFormed) : ∃ e, FirstFault config e := by
  by_cases hk : (config.dictionaries.map (·.key)).Nodup
  swap
  · obtain ⟨_, d, hd⟩ := exists_firstRepeat hk
    exact ⟨_, .key hd⟩
  by_cases hc : (config.declared.map (·.2.channel)).Nodup
  swap
  · obtain ⟨before, second, hs⟩ := exists_firstRepeat hc
    obtain ⟨first, hf, hfs⟩ := List.mem_map.1 hs.repeats
    exact ⟨_, .channel hk hs hf hfs⟩
  have hd : config.Distinct := ⟨hk, hc⟩
  by_cases hh : IsHostName config.host
  swap
  · exact ⟨_, .host hd hh⟩
  by_cases hp : config.port = 0
  · exact ⟨_, .port hd hh hp⟩
  by_cases hw : config.wssPort = 0
  · exact ⟨_, .wssPort hd hh hp hw⟩
  by_cases he : config.port = config.wssPort
  · exact ⟨_, .ports hd hh hp hw he⟩
  have hl : config.Listens := ⟨hd, hh, hp, hw, he⟩
  cases hb : config.brokerEndpoint with
  | error e =>
    obtain ⟨fault, rfl⟩ := brokerEndpoint_error hb
    exact ⟨_, .broker hl hb⟩
  | ok url =>
    cases ha : config.history.url with
    | error e =>
      obtain ⟨fault, rfl⟩ := history_url_error ha
      exact ⟨_, .archive hl hb ha⟩
    | ok target => exact absurd ⟨hl, ⟨url, hb⟩, target, ha⟩ h

/-- **Exactly the first fault is reported.** -/
theorem refuses_iff : config.validate = .error e ↔ FirstFault config e := by
  constructor
  · intro h
    have hw : ¬ config.WellFormed := by
      rw [← accepts_iff, h]
      exact nofun
    obtain ⟨e', he'⟩ := exists_firstFault hw
    have hee : e = e' := Except.error.inj (h.symm.trans he'.validate_eq)
    rw [hee]
    exact he'
  · exact FirstFault.validate_eq

/-- The order of the dictionaries does not matter for being well-formed. -/
theorem WellFormed.of_perm {ds : List Dictionary} (h : config.WellFormed)
    (hp : ds.Perm config.dictionaries) : { config with dictionaries := ds }.WellFormed where
  keys_nodup := (hp.map _).nodup_iff.2 h.keys_nodup
  channels_nodup := ((hp.flatMap_right _).map _).nodup_iff.2 h.channels_nodup
  host := h.host
  port_ne_zero := h.port_ne_zero
  wssPort_ne_zero := h.wssPort_ne_zero
  ports_ne := h.ports_ne
  broker := h.broker
  archive := h.archive

/-- **Whether a configuration is accepted does not depend on the order of its dictionaries.** -/
theorem accepts_perm {ds : List Dictionary} (hp : ds.Perm config.dictionaries) :
    { config with dictionaries := ds }.validate = .ok () ↔ config.validate = .ok () := by
  rw [accepts_iff, accepts_iff]
  constructor
  · intro h
    exact h.of_perm hp.symm
  · intro h
    exact h.of_perm hp

/-! ### Two dictionaries with one channel -/

/-- Dictionaries that differ by their keys declare no measurement twice, unless one of them does. -/
theorem declared_nodup (hr : ∀ d ∈ config.dictionaries, d.Registered)
    (hk : (config.dictionaries.map (·.key)).Nodup) : config.declared.Nodup := by
  unfold declared
  rw [List.nodup_flatMap]
  refine ⟨?_, ?_⟩
  · intro d hd
    have hms : d.measurements.Nodup := (hr d hd).sound.channels_nodup.of_map _
    exact hms.map fun a b hab => (Prod.mk.inj hab).2
  · refine (List.pairwise_map.1 hk).imp ?_
    intro d d' hne p hp hp'
    obtain ⟨_, -, rfl⟩ := List.mem_map.1 hp
    obtain ⟨_, -, hd⟩ := List.mem_map.1 hp'
    exact hne (by rw [(Prod.mk.inj hd).1])

/-- A measurement is declared with the dictionary that lists it. -/
theorem mem_declared {p : Dictionary × Measurement} (h : p ∈ config.declared) :
    p.1 ∈ config.dictionaries ∧ p.2 ∈ p.1.measurements := by
  obtain ⟨d, hd, hp⟩ := List.mem_flatMap.1 h
  obtain ⟨m, hm, rfl⟩ := List.mem_map.1 hp
  exact ⟨hd, hm⟩

/-- **A channel that is declared twice is declared by two dictionaries**: one of its own has it only
once. -/
theorem first_ne_second (hr : ∀ d ∈ config.dictionaries, d.Registered)
    {channel first second : String}
    (h : FirstFault config (.duplicateChannel channel first second)) : first ≠ second := by
  intro hkey
  cases h with
  | @channel before p q hk hs hf hc =>
    obtain ⟨⟨after, hsplit⟩, -, -⟩ := hs
    have hp : p ∈ config.declared := by rw [hsplit]; exact List.mem_append_left _ hf
    have hq : q ∈ config.declared := by rw [hsplit]; simp
    obtain ⟨hpd, hpm⟩ := mem_declared hp
    obtain ⟨hqd, hqm⟩ := mem_declared hq
    -- one dictionary, and in it one measurement with the channel
    have hd : p.1 = q.1 := List.inj_on_of_nodup_map hk hpd hqd hkey
    rw [← hd] at hqm
    have hm : p.2 = q.2 :=
      List.inj_on_of_nodup_map (hr _ hpd).sound.channels_nodup hpm hqm hc
    have hpq : p = q := Prod.ext hd hm
    have hn := declared_nodup hr hk
    rw [hsplit] at hn
    exact (List.nodup_append.1 hn).2.2 p hf q List.mem_cons_self hpq

/-- **Validation accepts exactly the well-formed configurations and names the first fault of any
other.** The order of the dictionaries does not matter for being accepted. A channel that is
declared twice is reported with two different dictionaries. An accepted configuration can be
connected: its broker has an address, and it is that of the endpoint, and its archive has the URL
that a server keeps. -/
theorem validate_exact (hr : ∀ d ∈ config.dictionaries, d.Registered) :
    (config.validate = .ok () ↔ config.WellFormed) ∧
      (∀ ds : List Dictionary, ds.Perm config.dictionaries →
        ({ config with dictionaries := ds }.validate = .ok () ↔ config.validate = .ok ())) ∧
      (∀ e, config.validate = .error e ↔ FirstFault config e) ∧
      (∀ channel first second,
        config.validate = .error (.duplicateChannel channel first second) → first ≠ second) ∧
      (config.validate = .ok () →
        (∃ url host, config.brokerEndpoint = .ok url ∧ url.host = some host ∧
          Broker.address config.brokerUrl = .ok (host.text, url.port.getD 1883)) ∧
        ∃ url, config.history.url = .ok url ∧
          ∀ clients, ∃ s, Server.create config clients = .ok s ∧ s.archiveUrl = url.text) := by
  refine ⟨accepts_iff, fun ds hp => accepts_perm hp, fun e => refuses_iff, ?_, ?_⟩
  · intro channel first second h
    exact first_ne_second hr (refuses_iff.1 h)
  · intro h
    have hw := accepts_iff.1 h
    obtain ⟨broker, hb⟩ := hw.broker
    obtain ⟨archive, ha⟩ := hw.archive
    obtain ⟨host, hhost⟩ := exists_host hb
    refine ⟨⟨broker, host, hb, hhost, ?_⟩, archive, ha, ?_⟩
    · exact address_eq_ok_iff.2 ⟨broker, host, hb, hhost, rfl⟩
    · intro clients
      exact ⟨_, Server.create_eq_ok_iff.2 ⟨h, archive, ha, rfl⟩, rfl⟩

end ServerConfig

/-- A height on the channel of another one. -/
def Measurement.height : Measurement := ⟨"height", "av/alt", [⟨"m", .float, some 0, some 500⟩]⟩

/-- A dictionary of the spare computer. -/
def Dictionary.spare : Dictionary := (empty "Spare" "sp").push .height rfl rfl

theorem Dictionary.spare_registered : spare.Registered :=
  .add (m := .height) (.empty "Spare" "sp") (List.forall_mem_singleton.2 rfl) rfl

namespace ServerConfig

/-- Two dictionaries with one channel, behind a blank host. -/
def clashing : ServerConfig := { host := " ", dictionaries := [.avionics, .spare] }

theorem clashing_registered : ∀ d ∈ clashing.dictionaries, d.Registered := by
  intro d hd
  rcases List.mem_pair.1 hd with rfl | rfl
  · exact Dictionary.avionics_registered
  · exact Dictionary.spare_registered

/-- Of the two faults the channel is reported. -/
theorem clashing_refused :
    clashing.validate = .error (.duplicateChannel "av/alt" "av" "sp") ∧ "av" ≠ "sp" ∧
      clashing.validate ≠ .ok () := by
  obtain ⟨-, -, hrefuses, hne, -⟩ := validate_exact clashing_registered
  have hs : FirstRepeat (fun p : Dictionary × Measurement => p.2.channel) clashing.declared
      [(.avionics, .altitude), (.avionics, .stage)] (.spare, .height) :=
    ⟨⟨[], rfl⟩, by decide, by decide⟩
  have hv : clashing.validate = .error (.duplicateChannel "av/alt" "av" "sp") :=
    (hrefuses _).2 (.channel (by decide) hs List.mem_cons_self rfl)
  refine ⟨hv, hne _ _ _ hv, ?_⟩
  rw [hv]
  exact nofun

end ServerConfig

end TelemetryRelay
