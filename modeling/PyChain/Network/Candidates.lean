import PyChain.Foundation.Json.Parse
import PyChain.Network.Moves

/-!
# Accepted endpoints

A configuration that accepts an address spells it as it was given, so an
accepted endpoint stays accepted, and the peer manager keeps accepted endpoints
only.
-/

namespace PyChain

open Foundation

namespace Network

/-!
## Addresses
-/

theorem toDigits_parseOctet {text : Str} {n : Nat} (h : parseOctet text = some n) :
    Nat.toDigits 10 n = text ∧ n ≤ 255 := by
  unfold parseOctet at h
  split at h
  · rename_i hoctet
    rcases hoctet with ⟨hne, hdigits, _, hzero, hbound⟩
    cases h
    refine ⟨?_, hbound⟩
    cases text with
    | nil => exact absurd rfl hne
    | cons c tail =>
        rcases hzero with hzero | hhead
        · rw [hzero]
          decide
        · have hc : c ≠ '0' := by
            intro hc
            apply hhead
            rw [hc]
            rfl
          exact (Json.toDigits_digitsValue hc tail
            (fun d hd => List.all_eq_true.mp hdigits d hd)).right
  · cases h

theorem renderIPv4_parseIPv4 {host : Str} {address : Nat} (h : parseIPv4 host = some address) :
    renderIPv4 address = host := by
  unfold parseIPv4 at h
  split at h
  · rename_i a b c d hsplit
    split at h
    · rename_i w x y z ha hb hc hd
      rcases toDigits_parseOctet ha with ⟨haText, haBound⟩
      rcases toDigits_parseOctet hb with ⟨hbText, hbBound⟩
      rcases toDigits_parseOctet hc with ⟨hcText, hcBound⟩
      rcases toDigits_parseOctet hd with ⟨hdText, hdBound⟩
      have hjoin : List.intercalate ['.'] (host.splitOn '.') = host :=
        List.intercalate_splitOn '.'
      rw [hsplit] at hjoin
      rw [← Option.some.inj h]
      have hw : (((w * 256 + x) * 256 + y) * 256 + z) / 2 ^ 24 % 256 = w := by omega
      have hx : (((w * 256 + x) * 256 + y) * 256 + z) / 2 ^ 16 % 256 = x := by omega
      have hy : (((w * 256 + x) * 256 + y) * 256 + z) / 2 ^ 8 % 256 = y := by omega
      have hz : (((w * 256 + x) * 256 + y) * 256 + z) % 256 = z := by omega
      unfold renderIPv4
      rw [hw, hx, hy, hz, haText, hbText, hcText, hdText, ← hjoin]
      simp [List.intercalate, List.intersperse]
    · cases h
  · cases h

theorem localIPv4_parse {host : Str} {address : Nat} (h : localIPv4 host = .ok address) :
    parseIPv4 host = some address := by
  unfold localIPv4 at h
  split at h
  · cases h
  · rename_i found hfound
    split at h
    · cases h
    · split at h
      · cases h
      · rw [hfound, Except.ok.inj h]

theorem validateHost_same {config : NodeConfig} {host other : Str}
    (h : config.validateHost host = .ok other) : other = host := by
  unfold NodeConfig.validateHost at h
  rcases bind_eq_ok_iff.mp h with ⟨address, haddress, h⟩
  simp only at h
  split at h
  · cases h
  · split at h
    · cases h
    · cases h
      exact renderIPv4_parseIPv4 (localIPv4_parse haddress)

theorem validateEndpoint_same {config : NodeConfig} {host : Str} {port : Nat}
    {endpoint : Endpoint} (h : config.validateEndpoint host port = .ok endpoint) :
    endpoint = { host := host, port := port } ∧ config.Accepts endpoint := by
  have haccepts := h
  unfold NodeConfig.validateEndpoint at h
  rcases bind_eq_ok_iff.mp h with ⟨_, _, h⟩
  rcases bind_eq_ok_iff.mp h with ⟨other, hother, h⟩
  cases h
  rw [validateHost_same hother] at haccepts ⊢
  exact ⟨rfl, haccepts⟩

theorem validateEndpoint_accepted {config : NodeConfig} {endpoint found : Endpoint}
    (h : config.validateEndpoint endpoint.host endpoint.port = .ok found) :
    found = endpoint ∧ config.Accepts endpoint := by
  rcases validateEndpoint_same h with ⟨hfound, haccepts⟩
  have heq : found = endpoint := hfound
  refine ⟨heq, ?_⟩
  rw [← heq]
  exact haccepts

/-!
## Candidates
-/

namespace PeerManager

variable {config : NodeConfig} {manager : PeerManager} {now jitter : Rat}
  {endpoint : Endpoint}

theorem Healthy.expire (h : manager.Healthy config) : (manager.expire config now).Healthy config := by
  intro endpoint entry hentry
  exact h endpoint entry ((Dict.get?_filter _ _ _ _).mp hentry).left

theorem Healthy.erase (h : manager.Healthy config) (endpoint : Endpoint) :
    Healthy config { manager with entries := manager.entries.erase endpoint } := by
  intro other entry hentry
  rw [Dict.get?_erase] at hentry
  split at hentry
  · cases hentry
  · exact h other entry hentry

theorem Healthy.set (h : manager.Healthy config) (haccepts : config.Accepts endpoint)
    {entry : Candidate} (hentry : entry.endpoint = endpoint) :
    Healthy config { manager with entries := manager.entries.set endpoint entry } := by
  intro other found hfound
  rw [Dict.get?_set] at hfound
  split at hfound
  · rename_i hother
    cases hfound
    rw [hother]
    exact ⟨hentry, haccepts⟩
  · exact h other found hfound

theorem addCandidate_healthy {seed : Bool} {added : Bool × PeerManager}
    (hadded : manager.addCandidate config now endpoint seed = .ok added)
    (h : manager.Healthy config) : added.2.Healthy config := by
  unfold addCandidate at hadded
  rcases bind_eq_ok_iff.mp hadded with ⟨found, hfound, hadded⟩
  rcases validateEndpoint_accepted hfound with ⟨hsame, haccepts⟩
  rw [hsame] at hadded
  have hexpired : (manager.expire config now).Healthy config := h.expire
  simp only at hadded
  split at hadded
  · cases hadded
    exact h
  · split at hadded
    · rename_i entry hentry
      cases hadded
      exact hexpired.set haccepts (hexpired endpoint entry hentry).left
    · split at hadded
      · split at hadded
        · cases hadded
          exact (hexpired.erase _).set haccepts rfl
        · cases hadded
          exact hexpired
      · cases hadded
        exact hexpired.set haccepts rfl

theorem addCandidate_total {seed : Bool} (haccepts : config.Accepts endpoint) :
    exists added, manager.addCandidate config now endpoint seed = .ok added := by
  unfold addCandidate
  rw [haccepts]
  simp only [bind, Except.bind]
  split
  · exact ⟨_, rfl⟩
  · split
    · exact ⟨_, rfl⟩
    · split
      · split
        · exact ⟨_, rfl⟩
        · exact ⟨_, rfl⟩
      · exact ⟨_, rfl⟩

theorem attemptEntry_endpoint {entry next : Candidate}
    (h : attemptEntry config now jitter entry = some next) : next.endpoint = entry.endpoint := by
  unfold attemptEntry at h
  simp only at h
  rcases (Option.ite_none_left_eq_some.mp h).right with h
  rcases (Option.ite_none_left_eq_some.mp h).right with h
  rw [← Option.some.inj h]
  change (if _ then _ else entry : Candidate).endpoint = entry.endpoint
  rw [apply_ite Candidate.endpoint]
  exact ite_self _

/-- The manager after a missing endpoint has been added. -/
def withEntry (config : NodeConfig) (now : Rat) (endpoint : Endpoint) (manager : PeerManager) :
    Except PyError PeerManager :=
  match manager.entries.get? endpoint with
  | some _ => .ok manager
  | none => Prod.snd <$> manager.addCandidate config now endpoint false

theorem withEntry_healthy {next : PeerManager}
    (hnext : manager.withEntry config now endpoint = .ok next) (h : manager.Healthy config) :
    next.Healthy config := by
  unfold withEntry at hnext
  split at hnext
  · cases hnext
    exact h
  · rcases map_eq_ok_iff.mp hnext with ⟨added, hadded, heq⟩
    rw [← heq]
    exact addCandidate_healthy hadded h

theorem withEntry_total (haccepts : config.Accepts endpoint) :
    exists next, manager.withEntry config now endpoint = .ok next := by
  unfold withEntry
  split
  · exact ⟨_, rfl⟩
  · rcases addCandidate_total haccepts with ⟨added, hadded⟩
    rw [hadded]
    exact ⟨_, rfl⟩

theorem markAttempt_eq (haccepts : config.Accepts endpoint) :
    manager.markAttempt config now jitter endpoint =
      (do
        let manager <- (manager.expire config now).withEntry config now endpoint
        match manager.entries.get? endpoint with
        | none => .ok (false, manager)
        | some entry =>
            match attemptEntry config now jitter entry with
            | none => .ok (false, manager)
            | some entry =>
                .ok (true, { manager with entries := manager.entries.set endpoint entry })) := by
  unfold markAttempt withEntry
  rw [haccepts]
  simp only [bind, Except.bind]
  cases (manager.expire config now).entries.get? endpoint with
  | none =>
      simp only
      cases (manager.expire config now).addCandidate config now endpoint false with
      | error e => rfl
      | ok added => rfl
  | some entry => rfl

theorem markConnected_eq (haccepts : config.Accepts endpoint)
    (hself : manager.selfEndpoint ≠ some endpoint) :
    manager.markConnected config now endpoint =
      (do
        let manager <- manager.withEntry config now endpoint
        match manager.entries.get? endpoint with
        | none => .ok (false, manager)
        | some entry =>
            .ok (true, { manager with
              entries := manager.entries.set endpoint
                { entry with
                  connected := true
                  dialing := false
                  verified := true
                  seenAt := now
                  attempts := 0
                  cycleStarted := none
                  nextAttempt := none } })) := by
  unfold markConnected withEntry
  rw [haccepts]
  simp only [bind, Except.bind]
  rw [if_neg hself]
  cases manager.entries.get? endpoint with
  | none =>
      simp only
      cases manager.addCandidate config now endpoint false with
      | error e => rfl
      | ok added => rfl
  | some entry => rfl

theorem markAttempt_accepts {marked : Bool × PeerManager}
    (hmarked : manager.markAttempt config now jitter endpoint = .ok marked) :
    config.Accepts endpoint := by
  unfold markAttempt at hmarked
  rcases bind_eq_ok_iff.mp hmarked with ⟨found, hfound, _⟩
  exact (validateEndpoint_accepted hfound).right

theorem markAttempt_healthy {marked : Bool × PeerManager}
    (hmarked : manager.markAttempt config now jitter endpoint = .ok marked)
    (h : manager.Healthy config) : marked.2.Healthy config := by
  have haccepts := markAttempt_accepts hmarked
  rw [markAttempt_eq haccepts] at hmarked
  rcases bind_eq_ok_iff.mp hmarked with ⟨next, hnext, hmarked⟩
  have hhealthy := withEntry_healthy hnext h.expire
  split at hmarked
  · cases hmarked
    exact hhealthy
  · rename_i old hold
    split at hmarked
    · cases hmarked
      exact hhealthy
    · rename_i entry hentry
      cases hmarked
      exact hhealthy.set haccepts
        ((attemptEntry_endpoint hentry).trans (hhealthy endpoint old hold).left)

theorem markAttempt_total (haccepts : config.Accepts endpoint) :
    exists marked, manager.markAttempt config now jitter endpoint = .ok marked := by
  rcases withEntry_total haccepts with ⟨next, hnext⟩
  rw [markAttempt_eq haccepts, hnext]
  simp only [bind, Except.bind]
  split
  · exact ⟨_, rfl⟩
  · split
    · exact ⟨_, rfl⟩
    · exact ⟨_, rfl⟩

theorem markConnected_healthy {marked : Bool × PeerManager}
    (hmarked : manager.markConnected config now endpoint = .ok marked)
    (h : manager.Healthy config) : marked.2.Healthy config := by
  have haccepts : config.Accepts endpoint := by
    unfold markConnected at hmarked
    rcases bind_eq_ok_iff.mp hmarked with ⟨found, hfound, _⟩
    exact (validateEndpoint_accepted hfound).right
  by_cases hself : manager.selfEndpoint = some endpoint
  · unfold markConnected at hmarked
    rw [haccepts] at hmarked
    simp only [bind, Except.bind] at hmarked
    rw [if_pos hself] at hmarked
    cases hmarked
    exact h
  · rw [markConnected_eq haccepts hself] at hmarked
    rcases bind_eq_ok_iff.mp hmarked with ⟨next, hnext, hmarked⟩
    have hhealthy := withEntry_healthy hnext h
    split at hmarked
    · cases hmarked
      exact hhealthy
    · rename_i entry hentry
      cases hmarked
      exact hhealthy.set haccepts (hhealthy endpoint entry hentry).left

theorem markConnected_total (haccepts : config.Accepts endpoint) :
    exists marked, manager.markConnected config now endpoint = .ok marked := by
  by_cases hself : manager.selfEndpoint = some endpoint
  · unfold markConnected
    rw [haccepts]
    simp only [bind, Except.bind]
    rw [if_pos hself]
    exact ⟨_, rfl⟩
  · rcases withEntry_total haccepts with ⟨next, hnext⟩
    rw [markConnected_eq haccepts hself, hnext]
    simp only [bind, Except.bind]
    split
    · exact ⟨_, rfl⟩
    · exact ⟨_, rfl⟩

theorem markDisconnected_healthy {next : PeerManager}
    (hmarked : manager.markDisconnected config now jitter endpoint = .ok next)
    (h : manager.Healthy config) : next.Healthy config := by
  unfold markDisconnected at hmarked
  rcases bind_eq_ok_iff.mp hmarked with ⟨found, hfound, hmarked⟩
  rcases validateEndpoint_accepted hfound with ⟨hsame, haccepts⟩
  rw [hsame] at hmarked
  split at hmarked
  · cases hmarked
    exact h
  · rename_i entry hentry
    cases hmarked
    exact h.set haccepts (h endpoint entry hentry).left

theorem markDisconnected_total (haccepts : config.Accepts endpoint) :
    exists next, manager.markDisconnected config now jitter endpoint = .ok next := by
  unfold markDisconnected
  rw [haccepts]
  simp only [bind, Except.bind]
  split
  · exact ⟨_, rfl⟩
  · exact ⟨_, rfl⟩

theorem Healthy.due (h : manager.Healthy config)
    (hdue : endpoint ∈ manager.dueCandidates now) : config.Accepts endpoint := by
  unfold dueCandidates at hdue
  rcases List.mem_map.mp hdue with ⟨entry, hentry, heq⟩
  have hmem := (List.mem_insertionSort _).mp hentry
  have hvalue := (List.mem_filter.mp hmem).left
  rcases List.mem_map.mp hvalue with ⟨item, hitem, hsecond⟩
  have hget : manager.entries.get? item.1 = some item.2 :=
    (Dict.get?_eq_some_iff _ _ _).mpr hitem
  rcases h _ _ hget with ⟨hendpoint, haccepts⟩
  rw [← heq, ← hsecond, hendpoint]
  exact haccepts

end PeerManager

end Network

end PyChain
