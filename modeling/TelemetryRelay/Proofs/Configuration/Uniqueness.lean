import TelemetryRelay.Configuration.Validate
import TelemetryRelay.Proofs.Dictionary.Registered

/-!
# What a checked configuration declares only once

A configuration passes `ServerConfig.validate` only if all of its checks pass (`validate_eq_ok_iff`).
Two of them read a list from the left and look each item up among those before it; such a search
finds nothing exactly if the items are pairwise different.

* `keys_nodup`: no two dictionaries share a key.
* `channels_nodup`: no channel is declared twice, in one dictionary or in two.
-/

namespace TelemetryRelay

/-- Two steps that may be refused succeed exactly if both do. -/
theorem bind_eq_ok_iff {ε α β : Type} {x : Except ε α} {f : α → Except ε β} {b : β} :
    x >>= f = .ok b ↔ ∃ a, x = .ok a ∧ f a = .ok b := by
  cases x with
  | error e =>
    constructor
    · intro h; cases h
    · rintro ⟨a, h, -⟩; cases h
  | ok a =>
    constructor
    · intro h; exact ⟨a, rfl, h⟩
    · rintro ⟨a', h, hf⟩; cases h; exact hf

theorem firstRepeatedKey_eq_none_iff : ∀ (keys seen : List String),
    firstRepeatedKey seen keys = none ↔ keys.Nodup ∧ ∀ k ∈ keys, k ∉ seen := by
  intro keys
  induction keys with
  | nil => intro seen; simp [firstRepeatedKey]
  | cons key rest ih =>
    intro seen
    rw [firstRepeatedKey]
    by_cases h : key ∈ seen
    · simp [h]
    · rw [if_neg (by simpa using h), ih, List.nodup_cons]
      constructor
      · rintro ⟨hn, hs⟩
        have hkey : key ∉ rest := fun hk => hs key hk List.mem_cons_self
        refine ⟨⟨hkey, hn⟩, ?_⟩
        intro k hk
        rcases List.mem_cons.1 hk with rfl | hk
        · exact h
        · exact fun hm => hs k hk (List.mem_cons_of_mem _ hm)
      · rintro ⟨⟨hkey, hn⟩, hs⟩
        refine ⟨hn, fun k hk hm => ?_⟩
        rcases List.mem_cons.1 hm with rfl | hm
        · exact hkey hk
        · exact hs k (List.mem_cons_of_mem _ hk) hm

theorem find_channel_eq_none_iff (seen : List Declaration) (channel : String) :
    seen.find? (·.channel == channel) = none ↔ channel ∉ seen.map (·.channel) := by
  simp [List.find?_eq_none]

theorem firstClash_eq_none_iff : ∀ (ds seen : List Declaration),
    firstClash seen ds = none ↔
      (ds.map (·.channel)).Nodup ∧ ∀ d ∈ ds, d.channel ∉ seen.map (·.channel) := by
  intro ds
  induction ds with
  | nil => intro seen; simp [firstClash]
  | cons d rest ih =>
    intro seen
    rw [firstClash]
    by_cases h : d.channel ∈ seen.map (·.channel)
    · have hsome : seen.find? (·.channel == d.channel) ≠ none := by
        rw [ne_eq, find_channel_eq_none_iff]; exact fun hn => hn h
      obtain ⟨first, hf⟩ := Option.ne_none_iff_exists'.1 hsome
      rw [hf]
      constructor
      · intro hc; cases hc
      · rintro ⟨-, hs⟩; exact absurd h (hs d List.mem_cons_self)
    · rw [(find_channel_eq_none_iff seen d.channel).2 h]
      simp only [ih, List.map_cons, List.nodup_cons]
      constructor
      · rintro ⟨hn, hs⟩
        have hd : d.channel ∉ rest.map (·.channel) := by
          intro hm
          obtain ⟨x, hx, hxd⟩ := List.mem_map.1 hm
          exact hs x hx (by rw [hxd]; exact List.mem_cons_self)
        refine ⟨⟨hd, hn⟩, ?_⟩
        intro x hx
        rcases List.mem_cons.1 hx with rfl | hx
        · exact h
        · exact fun hm => hs x hx (List.mem_cons_of_mem _ hm)
      · rintro ⟨⟨hd, hn⟩, hs⟩
        refine ⟨hn, fun x hx hm => ?_⟩
        rcases List.mem_cons.1 hm with hxd | hm
        · exact hd (hxd ▸ List.mem_map.2 ⟨x, hx, rfl⟩)
        · exact hs x (List.mem_cons_of_mem _ hx) hm

namespace ServerConfig

variable {config : ServerConfig}

theorem checkKeys_eq_ok_iff : config.checkKeys = .ok () ↔ config.dictionaryKeys.Nodup := by
  have h := firstRepeatedKey_eq_none_iff config.dictionaryKeys []
  unfold checkKeys
  cases hk : firstRepeatedKey [] config.dictionaryKeys <;> simp_all

theorem declarations_channels : config.declarations.map (·.channel) = config.channels := by
  simp [declarations, channels, List.map_flatMap, Function.comp_def]

theorem checkChannels_eq_ok_iff : config.checkChannels = .ok () ↔ config.channels.Nodup := by
  have h := firstClash_eq_none_iff config.declarations []
  rw [declarations_channels] at h
  unfold checkChannels
  cases hc : firstClash [] config.declarations <;> simp_all

/-- **A configuration is accepted exactly if every single check accepts it.** -/
theorem validate_eq_ok_iff : config.validate = .ok () ↔
    config.checkKeys = .ok () ∧ config.checkChannels = .ok () ∧ config.checkHost = .ok () ∧
      config.checkPorts = .ok () ∧ (∃ url, config.brokerEndpoint = .ok url) ∧
      ∃ url, config.history.url = .ok url := by
  unfold validate
  simp only [bind_eq_ok_iff]
  constructor
  · rintro ⟨_, hk, _, hc, _, hh, _, hp, b, hb, u, hu, _⟩
    exact ⟨hk, hc, hh, hp, ⟨b, hb⟩, u, hu⟩
  · rintro ⟨hk, hc, hh, hp, ⟨b, hb⟩, u, hu⟩
    exact ⟨(), hk, (), hc, (), hh, (), hp, b, hb, u, hu, rfl⟩

/-- No two dictionaries of an accepted configuration share a key. -/
theorem keys_nodup (h : config.validate = .ok ()) : config.dictionaryKeys.Nodup :=
  checkKeys_eq_ok_iff.1 (validate_eq_ok_iff.1 h).1

/-- No channel is declared twice in an accepted configuration. -/
theorem channels_nodup (h : config.validate = .ok ()) : config.channels.Nodup :=
  checkChannels_eq_ok_iff.1 (validate_eq_ok_iff.1 h).2.1

/-- One dictionary, with the defaults for all the rest, is accepted. -/
theorem validate_avionics : validate { dictionaries := [.avionics] } = .ok () := rfl

end ServerConfig

end TelemetryRelay
