import TelemetryRelay.Proofs.Relay.Verdict
import TelemetryRelay.Proofs.Server.Lifetime

/-!
# Channels and what is subscribed to

A message is filed under the measurement that its channel belongs to, which is looked up dictionary
by dictionary. A start subscribes to the channels that the dictionaries declare. In a configuration
that was accepted, of registered dictionaries, the two fit together:

* `DeclaredAt.unique`: a channel is declared at one place.
* `resolve?_perm`: the order of the dictionaries does not matter to the look-up.
* `exists_primary`: what is looked up has a variant, so its range can be checked.
* `subscriptions_start`: what a start subscribes to, and in which order.
* `channels_resolve_once`: **the look-up succeeds for exactly the channels subscribed to, and then
  with the one measurement declared for the channel.**
-/

namespace TelemetryRelay

/-! ### Looking a channel up -/

namespace Relay

variable {ds ds' : List Dictionary} {topic : String}

/-- The measurement at place `j` of the dictionary at place `i` has the channel. -/
def DeclaredAt (ds : List Dictionary) (topic : String) (i j : Nat) : Prop :=
  ∃ d m, ds[i]? = some d ∧ d.measurements[j]? = some m ∧ m.channel = topic

theorem DeclaredAt.mem_channels {i j : Nat} (h : DeclaredAt ds topic i j) :
    ∃ d, ds[i]? = some d ∧ d.channels[j]? = some topic := by
  obtain ⟨d, m, hd, hm, rfl⟩ := h
  exact ⟨d, hd, by simp [Dictionary.channels, hm]⟩

/-- **A channel is declared at one place**, if no channel is declared twice. -/
theorem DeclaredAt.unique (hn : Unambiguous ds) {i j i' j' : Nat} (h : DeclaredAt ds topic i j)
    (h' : DeclaredAt ds topic i' j') : i = i' ∧ j = j' := by
  obtain ⟨d, hd, hj⟩ := h.mem_channels
  obtain ⟨d', hd', hj'⟩ := h'.mem_channels
  obtain ⟨hone, hapart⟩ := List.nodup_flatMap.1 hn
  -- two dictionaries with the channel would share it
  have hfar : ∀ {a b : Nat} {x y : Dictionary}, ds[a]? = some x → ds[b]? = some y →
      topic ∈ x.channels → topic ∈ y.channels → ¬ a < b := by
    intro a b x y hx hy hxc hyc hab
    obtain ⟨ha, rfl⟩ := List.getElem?_eq_some_iff.1 hx
    obtain ⟨hb, rfl⟩ := List.getElem?_eq_some_iff.1 hy
    exact List.pairwise_iff_getElem.1 hapart a b ha hb hab hxc hyc
  have hmem : topic ∈ d.channels := List.mem_of_getElem? hj
  have hmem' : topic ∈ d'.channels := List.mem_of_getElem? hj'
  have hi : i = i' := by
    have h₁ := hfar hd hd' hmem hmem'
    have h₂ := hfar hd' hd hmem' hmem
    omega
  subst hi
  obtain rfl : d = d' := Option.some.inj (hd.symm.trans hd')
  refine ⟨rfl, ?_⟩
  obtain ⟨hlt, heq⟩ := List.getElem?_eq_some_iff.1 hj
  obtain ⟨hlt', heq'⟩ := List.getElem?_eq_some_iff.1 hj'
  exact (hone d (List.mem_of_getElem? hd)).getElem_inj_iff.1 (heq.trans heq'.symm)

theorem Unambiguous.perm (h : ds'.Perm ds) (hn : Unambiguous ds) : Unambiguous ds' :=
  (h.flatMap_right Dictionary.channels).nodup_iff.2 hn

theorem declares_perm (h : ds'.Perm ds) {d : Dictionary} {m : Measurement} :
    Declares ds' topic d m ↔ Declares ds topic d m := by
  unfold Declares
  rw [h.mem_iff]

/-- **The order of the dictionaries does not matter to a look-up.** -/
theorem resolve?_perm (h : ds'.Perm ds) (hn : Unambiguous ds) :
    resolve? ds' topic = resolve? ds topic := by
  apply Option.ext
  rintro ⟨d, m⟩
  rw [resolve?_eq_some_iff (hn.perm h), resolve?_eq_some_iff hn, declares_perm h]

/-- What is declared has a first variant. -/
theorem exists_primary (hr : ∀ d ∈ ds, d.Registered) {d : Dictionary} {m : Measurement}
    (h : Declares ds topic d m) : ∃ s, m.primary? = some s := by
  have hv : m.variants ≠ [] := (hr d h.1).sound.variants_ne_nil m h.2.1
  obtain ⟨s, rest, hs⟩ := List.exists_cons_of_ne_nil hv
  exact ⟨s, by simp [Measurement.primary?, hs]⟩

theorem isSome_resolve?_iff : (resolve? ds topic).isSome = true ↔
    topic ∈ ds.flatMap Dictionary.channels := by
  rw [← Option.ne_none_iff_isSome, ne_eq, resolve?_eq_none_iff, List.mem_flatMap]
  constructor
  · intro h
    by_contra hno
    refine h fun d m hd => hno ⟨d, hd.1, mem_channels.2 ⟨m, hd.2⟩⟩
  · rintro ⟨d, hd, hc⟩ h
    obtain ⟨m, hm⟩ := mem_channels.1 hc
    exact h d m ⟨hd, hm⟩

end Relay

/-! ### Subscribing -/

/-- The channel that a call subscribes to. -/
def Call.subscription? : Call → Option String
  | .acquire (.subscribe channel) => some channel
  | _ => none

/-- The channels that were subscribed to, in order. -/
def Trail.subscriptions (t : Trail) : List String := t.calls.filterMap Call.subscription?

namespace Server

variable {s : Server} {patience : Patience} {outcome : Call → Outcome}

theorem subscriptions_attempts :
    (s.attempts.map Call.acquire).filterMap Call.subscription? = s.config.channels := by
  have hsub : ((s.config.channels.map Acquiring.subscribe).map Call.acquire).filterMap
      Call.subscription? = s.config.channels := by
    rw [List.map_map, List.filterMap_map]
    exact List.filterMap_some
  simp only [attempts, List.map_append, List.filterMap_append, hsub]
  -- neither the call before the subscriptions nor those after them subscribe
  exact List.append_nil _

theorem subscriptions_closes (bs : List Backend) :
    (bs.map Call.close).filterMap Call.subscription? = [] := by
  rw [List.filterMap_map]
  exact List.filterMap_eq_nil_iff.2 fun _ _ => rfl

/-- **What a start subscribes to**: the channels of its configuration in their order, all of them if
it comes to run, and else the first few. -/
theorem subscriptions_start (hp : s.phase = .unstarted) (early : List Message) :
    ∃ result s' trail, s.start outcome patience early = (result, s', trail) ∧
      trail.subscriptions <+: s.config.channels ∧
      (s'.phase = .running → trail.subscriptions = s.config.channels) := by
  rcases @start_cases s outcome patience hp early with hall |
    ⟨result, s', trail, made, rest, done, -, hstart, hsplit, hcalls, -, -, -, -, hrun, -⟩
  · refine ⟨_, _, _, start_complete hp early hall, ?_⟩
    have hsubs : Trail.subscriptions { calls := s.attempts.map .acquire } = s.config.channels :=
      subscriptions_attempts
    exact ⟨hsubs.symm ▸ List.prefix_rfl, fun _ => hsubs⟩
  · refine ⟨result, s', trail, hstart, ?_, fun h => absurd h hrun⟩
    have hmade : made <+: s.attempts := ⟨rest, hsplit.symm⟩
    have hpre := (hmade.map Call.acquire).filterMap Call.subscription?
    rw [subscriptions_attempts] at hpre
    rw [Trail.subscriptions, hcalls, List.filterMap_append, subscriptions_closes, List.append_nil]
    exact hpre

end Server

/-- **Channels resolve once.** In an accepted configuration of registered dictionaries a channel is
declared at one place at most. Whatever the order of the dictionaries, a look-up gives the
dictionary and the measurement of that place, and the measurement has a first variant; it gives
nothing if there is no such place. A start subscribes to no channel twice, and once the server runs,
to exactly those for which a look-up succeeds. -/
theorem ServerConfig.channels_resolve_once {config : ServerConfig} (hv : config.validate = .ok ())
    (hr : ∀ d ∈ config.dictionaries, d.Registered) :
    (∀ topic i j i' j', Relay.DeclaredAt config.dictionaries topic i j →
      Relay.DeclaredAt config.dictionaries topic i' j' → i = i' ∧ j = j') ∧
    (∀ ds, ds.Perm config.dictionaries → ∀ topic,
      (∀ d m, Relay.resolve? ds topic = some (d, m) ↔
        Relay.Declares config.dictionaries topic d m) ∧
      (Relay.resolve? ds topic = none ↔ ∀ d m, ¬ Relay.Declares config.dictionaries topic d m) ∧
      Relay.resolve? ds topic = Relay.resolve? config.dictionaries topic ∧
      ∀ d m, Relay.resolve? ds topic = some (d, m) → ∃ s, m.primary? = some s) ∧
    ∀ clients s, Server.create config clients = .ok s → ∀ outcome patience early,
      ∃ result s' trail, s.start outcome patience early = (result, s', trail) ∧
        trail.subscriptions.Nodup ∧ trail.subscriptions <+: config.channels ∧
        (s'.phase = .running → ∀ topic,
          topic ∈ trail.subscriptions ↔
            (Relay.resolve? config.dictionaries topic).isSome = true) := by
  have hn : Relay.Unambiguous config.dictionaries := channels_nodup hv
  refine ⟨fun topic i j i' j' h h' => h.unique hn h', fun ds hperm topic => ?_, ?_⟩
  · have hsome : ∀ d m, Relay.resolve? ds topic = some (d, m) ↔
        Relay.Declares config.dictionaries topic d m := fun d m => by
      rw [Relay.resolve?_eq_some_iff (hn.perm hperm), Relay.declares_perm hperm]
    have hnone : Relay.resolve? ds topic = none ↔
        ∀ d m, ¬ Relay.Declares config.dictionaries topic d m := by
      rw [Relay.resolve?_eq_none_iff]
      simp only [Relay.declares_perm hperm]
    exact ⟨hsome, hnone, Relay.resolve?_perm hperm hn,
      fun d m h => Relay.exists_primary hr ((hsome d m).1 h)⟩
  · intro clients s hs outcome patience early
    obtain ⟨-, url, -, rfl⟩ := Server.create_eq_ok_iff.1 hs
    obtain ⟨result, s', trail, hstart, hpre, hall⟩ :=
      @Server.subscriptions_start
        { config, archiveUrl := url.text, flow := { dictionaries := config.dictionaries, clients } }
        patience outcome rfl early
    refine ⟨result, s', trail, hstart, hpre.sublist.nodup hn, hpre, fun hrun topic => ?_⟩
    rw [hall hrun, Relay.isSome_resolve?_iff]
    rfl

/-- The temperature of what is carried. -/
def Measurement.temperature : Measurement :=
  ⟨"temperature", "pl/temp",
    [⟨"K", .integer, some 0, some 500⟩, ⟨"state", .enumeration, none, none⟩]⟩

/-- A second dictionary. -/
def Dictionary.payload : Dictionary := (empty "Payload" "pl").push .temperature rfl rfl

theorem Dictionary.payload_registered : payload.Registered :=
  .add (m := .temperature) (.empty "Payload" "pl") (by
    rintro s (_ | ⟨_, _ | ⟨_, hs⟩⟩)
    · rfl
    · rfl
    · cases hs) rfl

/-- With two dictionaries, a channel of the first one is found from either order. -/
theorem ServerConfig.second_first_resolves :
    ServerConfig.validate { dictionaries := [.avionics, .payload] } = .ok () ∧
      Relay.resolve? [.avionics, .payload] "av/stage" = some (.avionics, .stage) ∧
      Relay.resolve? [.payload, .avionics] "av/stage" = some (.avionics, .stage) := by
  have hv : ServerConfig.validate { dictionaries := [.avionics, .payload] } = .ok () := rfl
  have hr : ∀ d ∈ [Dictionary.avionics, .payload], d.Registered := by
    intro d hd
    rcases List.mem_pair.1 hd with rfl | rfl
    · exact Dictionary.avionics_registered
    · exact Dictionary.payload_registered
  obtain ⟨-, h, -⟩ := channels_resolve_once hv hr
  have hstage : Relay.Declares [.avionics, .payload] "av/stage" .avionics .stage :=
    ⟨List.mem_cons_self, List.mem_cons_of_mem _ List.mem_cons_self, rfl⟩
  obtain ⟨hsome, -, hsame, -⟩ := h [.payload, .avionics] (.swap _ _ _) "av/stage"
  have hfound := (hsome _ _).2 hstage
  exact ⟨hv, hsame.symm.trans hfound, hfound⟩

end TelemetryRelay
