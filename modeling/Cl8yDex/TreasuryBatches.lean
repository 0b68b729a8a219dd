import Cl8yDex.RegistryPaging

/-!
# Batches over all pairs

A batch continues after the last position scanned. A chain of treasury batches reaches the pairs
in the order of their creation, whatever is created in between, and all of them at its end.
-/

namespace Cl8yDex.Factory

open Outcome

variable {s s' : Storage} {host : Host} {sender : String}

section Batches

variable {msg : PairMsg}

/-- The message to a listed pair. -/
def messageTo (msg : PairMsg) (info : PairInfo) : Message := .executePair info.contractAddr msg

theorem messageAt_eq {idx : ℕ} {info : PairInfo} (h : s.pairIndex[idx]? = some info) :
    messageAt s msg idx = [messageTo msg info] := by
  unfold messageAt
  rw [h]
  rfl

/-- The loop attaches one message for each position until the limit. -/
theorem scanBatch_eq (h : Registered s) {batchLimit remaining idx : ℕ} {messages : List Message}
    (hend : idx + remaining ≤ s.pairCount) (hlimit : messages.length ≤ batchLimit) :
    scanBatch s batchLimit msg remaining idx messages =
      (idx + min remaining (batchLimit - messages.length),
        messages ++ (((listing s).drop idx).take
          (min remaining (batchLimit - messages.length))).map (messageTo msg)) := by
  induction remaining generalizing idx messages with
  | zero => simp [scanBatch]
  | succ remaining ih =>
    unfold scanBatch
    by_cases hless : messages.length < batchLimit
    · obtain ⟨info, hinfo⟩ := h.exists_of_lt (show idx < s.pairCount by omega)
      rw [if_pos hless, messageAt_eq hinfo, ih (by omega) (by simp; omega)]
      have hcount : min (remaining + 1) (batchLimit - messages.length) =
          min remaining (batchLimit - (messages ++ [messageTo msg info]).length) + 1 := by
        rw [List.length_append, List.length_singleton]
        omega
      have hdrop : (listing s).drop idx = info :: (listing s).drop (idx + 1) := by
        have hget := (h.getElem?_listing idx).trans hinfo
        obtain ⟨hlt, hvalue⟩ := List.getElem?_eq_some_iff.mp hget
        rw [List.drop_eq_getElem_cons hlt, hvalue]
      rw [hcount, hdrop, List.take_succ_cons, List.map_cons, List.append_assoc]
      congr 1
      omega
    · have hzero : batchLimit - messages.length = 0 := by omega
      rw [if_neg hless, hzero]
      simp

/-- The first position of a batch. -/
def firstIndex (startAfter : Option ℕ) : ℕ := startAfter.elim 0 (· + 1)

/-- A batch takes the listed pairs from its first position up to the limit. -/
theorem messagesToBatch_eq (h : Registered s) {startAfter : Option ℕ}
    (hstart : firstIndex startAfter ≤ s.pairCount) (msg : PairMsg) (limit : Option ℕ) :
    ∃ report, messagesToBatch s msg startAfter limit =
        ⟨(((listing s).drop (firstIndex startAfter)).take (calcLimit limit)).map (messageTo msg),
          some report⟩ ∧
      (report.hasMore = true →
        firstIndex report.nextStartAfter = firstIndex startAfter + calcLimit limit ∧
        firstIndex report.nextStartAfter < s.pairCount) ∧
      (report.hasMore = false → s.pairCount ≤ firstIndex startAfter + calcLimit limit) := by
  have hpositive : 1 ≤ calcLimit limit := le_max_left _ _
  have hbound := h.bounded
  have hlength := h.length_listing
  have hfirst : (startAfter.elim 0 fun start => min (start + 1) u64Max) =
      firstIndex startAfter := by
    cases startAfter with
    | none => rfl
    | some start =>
      have hle : start + 1 ≤ s.pairCount := hstart
      exact min_eq_left (hle.trans hbound)
  unfold messagesToBatch
  dsimp only
  rw [hfirst]
  by_cases hend : s.pairCount ≤ firstIndex startAfter
  · have hempty : (listing s).drop (firstIndex startAfter) = [] :=
      List.drop_eq_nil_of_le (hlength.trans_le hend)
    rw [if_pos hend, hempty, List.take_nil, List.map_nil]
    refine ⟨⟨0, false, none, none⟩, rfl, ?_, ?_⟩
    · intro hmore
      cases hmore
    · intro _
      omega
  · let idx := firstIndex startAfter + min (s.pairCount - firstIndex startAfter) (calcLimit limit)
    have hscan : scanBatch s (calcLimit limit) msg (s.pairCount - firstIndex startAfter)
        (firstIndex startAfter) [] = (idx,
          (((listing s).drop (firstIndex startAfter)).take (calcLimit limit)).map
            (messageTo msg)) := by
      have hdrop : ((listing s).drop (firstIndex startAfter)).length =
          s.pairCount - firstIndex startAfter := by
        rw [List.length_drop, hlength]
      have htake : ((listing s).drop (firstIndex startAfter)).take
          (min (s.pairCount - firstIndex startAfter) (calcLimit limit)) =
            ((listing s).drop (firstIndex startAfter)).take (calcLimit limit) := by
        rw [← hdrop, Nat.min_comm]
        exact List.take_eq_take_min.symm
      rw [scanBatch_eq h (by omega) (Nat.zero_le _), List.length_nil, Nat.sub_zero,
        List.nil_append, htake]
    rw [if_neg hend, hscan]
    refine ⟨_, rfl, ?_, ?_⟩
    · intro hmore
      have hlt : idx < s.pairCount := of_decide_eq_true hmore
      dsimp only
      rw [if_pos hmore]
      have hnext : firstIndex (some (idx - 1)) = idx := by
        change idx - 1 + 1 = idx
        omega
      rw [hnext]
      omega
    · intro hmore
      have hnot : ¬ idx < s.pairCount := of_decide_eq_false hmore
      omega

/-- A chain of treasury batches: the state at the last one, where the next one starts, the
messages sent so far, and whether the last one reported that no more is left. -/
structure Chain where
  storage : Storage
  startAfter : Option ℕ
  messages : List Message
  finished : Bool

/-- One more call, after further transactions; a finished chain makes none, and a call that is
refused or whose messages fail leaves the chain where it was. -/
def Chain.next (treasury : String) (chain : Chain)
    (call : List Event × Host × String × Option ℕ × Bool) : Chain :=
  let (events, host, sender, limit, delivered) := call
  if chain.finished then chain
  else
    let s := events.foldl Event.run chain.storage
    match executeSetPairTreasuryBatch s host sender treasury chain.startAfter limit with
    | .ok ⟨messages, some report⟩ =>
      if delivered then
        ⟨s, report.nextStartAfter, chain.messages ++ messages, !report.hasMore⟩
      else { chain with storage := s }
    | _ => { chain with storage := s }

/-- The messages so far go to the first pairs of the listing, and to all when finished. -/
structure Chain.Sound (treasury : String) (chain : Chain) : Prop where
  registered : Registered chain.storage
  messages : chain.messages = ((listing chain.storage).map
    (messageTo (.updateTreasury treasury))).take chain.messages.length
  unfinished : chain.finished = false →
    chain.messages.length = firstIndex chain.startAfter ∧
      firstIndex chain.startAfter ≤ chain.storage.pairCount
  finished : chain.finished = true → chain.messages.length = chain.storage.pairCount

theorem executeSetPairTreasuryBatch_ok {treasury : String} {startAfter limit : Option ℕ}
    {response : Response}
    (h : executeSetPairTreasuryBatch s host sender treasury startAfter limit = .ok response) :
    response = messagesToBatch s (.updateTreasury treasury) startAfter limit := by
  obtain ⟨_, -, h⟩ := bind_eq_ok.mp h
  obtain ⟨_, -, h⟩ := bind_eq_ok.mp h
  exact (Except.ok.inj h).symm

theorem Chain.Sound.moved {treasury : String} {chain : Chain} (h : chain.Sound treasury)
    (hopen : chain.finished = false) (events : List Event) :
    Chain.Sound treasury { chain with storage := events.foldl Event.run chain.storage } := by
  have hgrows := run_grows h.registered events
  have hprefix := (hgrows.listing_prefix h.registered).map
    (messageTo (.updateTreasury treasury))
  obtain ⟨hlength, hle⟩ := h.unfinished hopen
  constructor
  · exact hgrows.registered
  · have hmessages : chain.messages <+: (listing (events.foldl Event.run chain.storage)).map
        (messageTo (.updateTreasury treasury)) := by
      refine List.IsPrefix.trans ?_ hprefix
      rw [List.prefix_iff_eq_take]
      exact h.messages
    exact List.prefix_iff_eq_take.mp hmessages
  · intro _
    have hcount := (hgrows.listing_prefix h.registered).length_le
    rw [h.registered.length_listing, hgrows.registered.length_listing] at hcount
    exact ⟨hlength, hle.trans hcount⟩
  · intro hfinished
    rw [hopen] at hfinished
    cases hfinished

/-- A call sends the next messages of the listing, as many as its limit allows. -/
theorem Chain.Sound.called {treasury : String} {chain : Chain} (h : chain.Sound treasury)
    (hopen : chain.finished = false) {limit : Option ℕ} {messages : List Message}
    {report : BatchReport} (hcall : executeSetPairTreasuryBatch chain.storage host sender treasury
      chain.startAfter limit = .ok ⟨messages, some report⟩) :
    Chain.Sound treasury ⟨chain.storage, report.nextStartAfter, chain.messages ++ messages,
      !report.hasMore⟩ := by
  obtain ⟨hlength, hle⟩ := h.unfinished hopen
  have hregistered := h.registered
  obtain ⟨report', hbatch, hmore, hlast⟩ := messagesToBatch_eq hregistered hle
    (.updateTreasury treasury) limit
  have hresponse := (executeSetPairTreasuryBatch_ok hcall).trans hbatch
  injection hresponse with hmessages hreport
  cases hreport
  have hcount := hregistered.length_listing
  have happend : chain.messages ++ messages = ((listing chain.storage).map
      (messageTo (.updateTreasury treasury))).take (chain.messages.length + calcLimit limit) := by
    rw [List.take_add, ← h.messages, hmessages, hlength, List.map_take, List.map_drop]
  have htotal : (chain.messages ++ messages).length =
      min (firstIndex chain.startAfter + calcLimit limit) chain.storage.pairCount := by
    rw [happend, List.length_take, List.length_map, hcount, hlength]
  constructor
  · exact hregistered
  · dsimp only
    conv_lhs => rw [happend]
    rw [List.take_eq_take_iff, htotal, List.length_map, hcount, hlength]
    omega
  · intro hunfinished
    have hhas : report.hasMore = true := by
      cases hvalue : report.hasMore with
      | true => rfl
      | false => simp [hvalue] at hunfinished
    obtain ⟨hnext, hlt⟩ := hmore hhas
    constructor
    · dsimp only
      rw [htotal]
      omega
    · exact hlt.le
  · intro hfinished
    have hhas : report.hasMore = false := by
      cases hvalue : report.hasMore with
      | false => rfl
      | true => simp [hvalue] at hfinished
    have hall := hlast hhas
    dsimp only
    rw [htotal]
    omega

theorem Chain.Sound.next {treasury : String} {chain : Chain} (h : chain.Sound treasury)
    (call : List Event × Host × String × Option ℕ × Bool) :
    (chain.next treasury call).Sound treasury := by
  obtain ⟨events, host, sender, limit, delivered⟩ := call
  unfold Chain.next
  dsimp only
  by_cases hfinished : chain.finished = true
  · rw [if_pos hfinished]
    exact h
  · have hopen : chain.finished = false := by
      cases hvalue : chain.finished with
      | false => rfl
      | true => exact absurd hvalue hfinished
    have hmoved := h.moved hopen events
    rw [if_neg hfinished]
    split
    case h_1 messages report hcall =>
      cases delivered with
      | true => exact hmoved.called hopen hcall
      | false => exact hmoved
    case h_2 => exact hmoved

theorem chain_sound (treasury : String) (hs : Registered s)
    (calls : List (List Event × Host × String × Option ℕ × Bool)) :
    (calls.foldl (Chain.next treasury) ⟨s, none, [], false⟩).Sound treasury := by
  have hstart : Chain.Sound treasury ⟨s, none, [], false⟩ := by
    constructor
    · exact hs
    · rfl
    · intro _
      exact ⟨rfl, Nat.zero_le _⟩
    · intro hfinished
      cases hfinished
  exact List.foldlRecOn calls (Chain.next treasury) hstart fun chain hchain call _ =>
    hchain.next call

end Batches

/-- The registry in every state that transactions lead to: it lists the created pairs in the order
of their creation, each once, and both enumerations follow the listing. -/
theorem registry_consistent (msg : InstantiateMsg) (s₀ : Storage)
    (hinit : instantiate host msg = .ok s₀) (history : List Event) :
    Registered (history.foldl Event.run s₀) ∧
    (listing (history.foldl Event.run s₀)).Pairwise
      (fun info other => ¬ SameAssets info.assetInfos other.assetInfos) ∧
    listing (history.foldl Event.run s₀) = createdBy s₀ history ∧
    (∀ event : Event, listing (event.run (history.foldl Event.run s₀)) =
      listing (history.foldl Event.run s₀) ++ event.created (history.foldl Event.run s₀)) ∧
    (∀ calls events limit, ∃ before after : Pages,
      readPages ⟨history.foldl Event.run s₀, []⟩ calls = .ok before ∧
      before.next events limit = .ok after ∧
      after.storage = events.foldl Event.run before.storage ∧
      after.returned = (listing after.storage).take
        (before.returned.length + calcLimit limit)) ∧
    (∀ (treasury : String) (calls : List (List Event × Host × String × Option ℕ × Bool)),
      let chain := calls.foldl (Chain.next treasury)
        ⟨history.foldl Event.run s₀, none, [], false⟩
      let reached := (listing chain.storage).map (messageTo (.updateTreasury treasury))
      chain.messages <+: reached ∧
      (chain.finished = true → chain.messages = reached) ∧
      (chain.finished = false → ∀ host sender limit response,
        executeSetPairTreasuryBatch chain.storage host sender treasury chain.startAfter limit =
          .ok response →
        response.messages = (reached.drop chain.messages.length).take (calcLimit limit))) := by
  have hstart : Registered s₀ := (instantiate_registered msg).success hinit
  have hregistered := (run_grows hstart history).registered
  have hnone : listing s₀ = [] := by
    have hcount : s₀.pairCount = 0 := (instantiate_empty msg).success hinit
    unfold listing
    rw [hcount, List.range_zero, List.filterMap_nil]
  have hcreated := @listing_run s₀ history
  rw [hnone, List.nil_append] at hcreated
  refine ⟨hregistered, hregistered.listing_distinct, hcreated, listing_event, ?_, ?_⟩
  · intro calls events limit
    have hnone : Pages.Sound ⟨history.foldl Event.run s₀, []⟩ :=
      ⟨hregistered, List.nil_prefix⟩
    obtain ⟨before, hbefore, hsound⟩ := readPages_sound hnone calls
    obtain ⟨after, hafter, -, hstorage, hreturned⟩ := hsound.next events limit
    exact ⟨before, after, hbefore, hafter, hstorage, hreturned⟩
  · intro treasury calls
    have hsound := chain_sound treasury hregistered calls
    dsimp only
    refine ⟨List.prefix_iff_eq_take.mpr hsound.messages, ?_, ?_⟩
    · intro hfinished
      have hall := hsound.finished hfinished
      rw [hsound.messages, hall, ← hsound.registered.length_listing, ← List.length_map,
        List.take_length]
    · intro hopen host sender limit response hcall
      obtain ⟨hlength, hle⟩ := hsound.unfinished hopen
      obtain ⟨report, hbatch, -⟩ := messagesToBatch_eq hsound.registered hle
        (.updateTreasury treasury) limit
      rw [executeSetPairTreasuryBatch_ok hcall, hbatch, hlength, List.map_take, List.map_drop]

def sampleHost : Host where
  contractAddress := "factory"
  validAddr := fun _ => true
  codeId := fun _ => some 1
  decimals := fun _ => some 6
  isCommunityTax := fun _ => false

def sampleInstantiate : InstantiateMsg := ⟨"gov", "treasury", 30, 1, 2, [1], 20, 0⟩

def sampleFactory : Storage where
  config := ⟨"gov", "treasury", 30, 1, 2, clampMaxBatchRungs 20, 0, none⟩
  whitelistedCodeIds codeId := [1].contains codeId
  pairs := ∅
  pairCount := 0
  pairIndex := ∅
  pairKeyIndex := ∅
  pairAddrRegistered := ∅
  pendingPair := none
  pairCreationBlock := none
  blacklistedWallets _ := false
  blacklistedTokens _ := false
  blacklistedPairs _ := false

def sampleFirst : PairInfo := ⟨(.token "a", .token "b"), "pair1", "lp1"⟩

def sampleSecond : PairInfo := ⟨(.token "c", .token "b"), "pair2", "lp2"⟩

def sampleCreateFirst : Event :=
  .createPair sampleHost "alice" 5 [] sampleFirst.assetInfos (some ⟨"pair1", "lp1"⟩) true

def sampleCreateSecond : Event :=
  .createPair sampleHost "bob" 6 [] sampleSecond.assetInfos (some ⟨"pair2", "lp2"⟩) true

def sampleThird : PairInfo := ⟨(.token "a", .token "c"), "pair3", "lp3"⟩

def sampleCreateThird : Event :=
  .createPair sampleHost "carol" 7 [] sampleThird.assetInfos (some ⟨"pair3", "lp3"⟩) true

/-- Batches of one pair; another pair is created after the first of them. -/
def sampleCalls : List (List Event × Host × String × Option ℕ × Bool) :=
  [([], sampleHost, "gov", some 1, true), ([sampleCreateThird], sampleHost, "gov", some 1, true),
    ([], sampleHost, "gov", some 1, true)]

theorem registry_consistent_sample :
    instantiate sampleHost sampleInstantiate = .ok sampleFactory ∧
    listing ([sampleCreateFirst, sampleCreateSecond].foldl Event.run sampleFactory) =
      [sampleFirst, sampleSecond] ∧
    (∃ first second : Pages,
      readPages ⟨[sampleCreateFirst].foldl Event.run sampleFactory, []⟩ [([], some 1)] = .ok first ∧
      first.next [sampleCreateSecond] (some 1) = .ok second ∧
      first.returned = [sampleFirst] ∧ second.returned = [sampleFirst, sampleSecond]) ∧
    (sampleCalls.foldl (Chain.next "vault")
      ⟨[sampleCreateFirst, sampleCreateSecond].foldl Event.run sampleFactory, none, [],
        false⟩).messages =
      [sampleFirst, sampleSecond, sampleThird].map (messageTo (.updateTreasury "vault")) := by
  have hinit : instantiate sampleHost sampleInstantiate = .ok sampleFactory := rfl
  refine ⟨hinit, ?_, ?_, ?_⟩
  · have h := registry_consistent sampleInstantiate _ hinit [sampleCreateFirst, sampleCreateSecond]
    rw [h.2.2.1]
    decide +kernel
  · have h := registry_consistent sampleInstantiate _ hinit [sampleCreateFirst]
    obtain ⟨none, first, hnone, hfirst, hstorage, hreturned⟩ := h.2.2.2.2.1 [] [] (some 1)
    cases hnone
    have hread : readPages ⟨[sampleCreateFirst].foldl Event.run sampleFactory, []⟩
        [([], some 1)] = .ok first := by
      unfold readPages
      rw [List.foldlM_cons, hfirst]
      rfl
    obtain ⟨before, second, hbefore, hsecond, hstorage', hreturned'⟩ :=
      h.2.2.2.2.1 [([], some 1)] [sampleCreateSecond] (some 1)
    obtain rfl : first = before := by
      rw [hread] at hbefore
      exact Except.ok.inj hbefore
    rw [hstorage] at hreturned hstorage'
    rw [hstorage'] at hreturned'
    have hone : first.returned = [sampleFirst] := by
      rw [hreturned]
      decide +kernel
    refine ⟨first, second, hread, hsecond, hone, ?_⟩
    rw [hreturned', hone]
    decide +kernel
  · have h := registry_consistent sampleInstantiate _ hinit [sampleCreateFirst, sampleCreateSecond]
    obtain ⟨-, hall, -⟩ := h.2.2.2.2.2 "vault" sampleCalls
    have hlisted : listing (sampleCalls.foldl (Chain.next "vault")
        ⟨[sampleCreateFirst, sampleCreateSecond].foldl Event.run sampleFactory, none, [],
          false⟩).storage = [sampleFirst, sampleSecond, sampleThird] := by decide +kernel
    rw [hall (by decide +kernel), hlisted]

end Cl8yDex.Factory
