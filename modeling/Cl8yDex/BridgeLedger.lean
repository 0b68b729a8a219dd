import Cl8yDex.BridgeSupply
import Mathlib.Tactic.Ring

/-!
# The ledger of a market

How a market's record, its receipt and the history agree, what holds of all markets together, and
that a move on one market keeps it.
-/

namespace Cl8yDex.BridgeDebt

variable {σ : Type} (me : Addr)

def totalIssued (issues : List Issue) : ℕ := (issues.map Issue.amount).sum

def issuedSince (issues : List Issue) (start : ℕ) : ℕ :=
  totalIssued (issues.filter fun i => start ≤ i.time)

section Quota

variable {issues : List Issue} {m m' : Market} {now n issued : ℕ} {l : IssuanceLimits}

/-- The record of the running epoch is what was issued since it began. -/
structure Quota (issues : List Issue) (m : Market) : Prop where
  unlimited : m.limits = none → issues = [] ∧ m.epochIssued = 0
  seconds : ∀ l ∈ m.limits, l.epochSeconds ≠ 0
  past : ∀ l ∈ m.limits, ∀ i ∈ issues, i.time / l.epochSeconds ≤ m.epoch
  exact : ∀ l ∈ m.limits, issuedSince issues (m.epoch * l.epochSeconds) = m.epochIssued

theorem totalIssued_append (xs ys : List Issue) :
    totalIssued (xs ++ ys) = totalIssued xs + totalIssued ys := by
  simp [totalIssued]

theorem issuedSince_append (xs ys : List Issue) (start : ℕ) :
    issuedSince (xs ++ ys) start = issuedSince xs start + issuedSince ys start := by
  simp [issuedSince, totalIssued_append]

theorem issuedSince_after {start : ℕ} (h : ∀ i ∈ issues, i.time < start) :
    issuedSince issues start = 0 := by
  have hnil : issues.filter (fun i => start ≤ i.time) = [] := by
    rw [List.filter_eq_nil_iff]
    intro i hi
    have := h i hi
    simpa using this
  rw [issuedSince, hnil]
  rfl

theorem issuedSince_now {seconds : ℕ} :
    issuedSince [⟨now, n⟩] (now / seconds * seconds) = n := by
  simp [issuedSince, totalIssued, Nat.div_mul_le_self]

theorem Quota.keeps (h : Quota issues m) (hkeeps : KeepsQuota now m m') : Quota issues m' := by
  cases hlimits : m.limits with
  | none =>
      obtain ⟨hnil, hzero⟩ := h.unlimited hlimits
      rw [hnil]
      constructor
      · exact fun _ => ⟨rfl, hkeeps.epochIssued.trans hzero⟩
      · intro l hl
        obtain hnone | ⟨l', hl', hseconds, -⟩ := hkeeps.fresh hlimits
        · rw [hnone] at hl
          cases hl
        · rw [Option.mem_unique hl hl']
          exact hseconds
      · intro l hl i hi
        cases hi
      · intro l hl
        rw [hkeeps.epochIssued, hzero]
        rfl
  | some l =>
      obtain ⟨hepoch, l', hl', hseconds⟩ := hkeeps.running l hlimits
      have hsame : ∀ l'' ∈ m'.limits, l''.epochSeconds = l.epochSeconds := by
        intro l'' hl''
        rw [Option.mem_unique hl'' hl', hseconds]
      constructor
      · intro hnone
        rw [hnone] at hl'
        cases hl'
      · intro l'' hl''
        rw [hsame l'' hl'']
        exact h.seconds l hlimits
      · intro l'' hl''
        rw [hsame l'' hl'', hepoch]
        exact h.past l hlimits
      · intro l'' hl''
        rw [hsame l'' hl'', hepoch, hkeeps.epochIssued]
        exact h.exact l hlimits

/-- An issue counts against the epoch of its block, and an earlier epoch counts no more. -/
theorem Quota.consumes (h : Quota issues m) (hc : Consumes now m l n issued)
    (hlimits : m'.limits = m.limits) (hepoch : m'.epoch = now / l.epochSeconds)
    (hissued : m'.epochIssued = issued) : Quota (issues ++ [⟨now, n⟩]) m' := by
  have hl : m'.limits = some l := hlimits.trans hc.limits
  have honly : ∀ l' ∈ m'.limits, l' = l := fun l' hl' => Option.mem_unique hl' hl
  have hpast := h.past l hc.limits
  have hseconds := h.seconds l hc.limits
  constructor
  · intro hnone
    rw [hnone] at hl
    cases hl
  · intro l' hl'
    rw [honly l' hl']
    exact hseconds
  · intro l' hl' i hi
    rw [honly l' hl', hepoch]
    rcases List.mem_append.1 hi with hi | hi
    · exact (hpast i hi).trans hc.forward
    · rw [List.mem_singleton.1 hi]
  · intro l' hl'
    rw [honly l' hl', hepoch, hissued, issuedSince_append, issuedSince_now, hc.total]
    congr 1
    split_ifs with hlt
    · apply issuedSince_after
      intro i hi
      have hi' := hpast i hi
      exact (Nat.div_lt_iff_lt_mul (Nat.pos_of_ne_zero hseconds)).1 (hi'.trans_lt hlt)
    · rw [← le_antisymm hc.forward (not_lt.1 hlt)]
      exact h.exact l hc.limits

/-- A repay leaves the quota alone. -/
theorem Quota.congr (h : Quota issues m) (hlimits : m'.limits = m.limits)
    (hepoch : m'.epoch = m.epoch) (hissued : m'.epochIssued = m.epochIssued) :
    Quota issues m' := by
  constructor
  · rw [hlimits, hissued]
    exact h.unlimited
  · rw [hlimits]
    exact h.seconds
  · rw [hlimits, hepoch]
    exact h.past
  · rw [hlimits, hepoch, hissued]
    exact h.exact

end Quota

/-- A market's record agrees with its receipt and with the history. -/
structure Kept (w : World σ) (h : History) (u : Addr) (m : Market) : Prop where
  underlying : m.underlying = u
  flagged : w.issuer.debtTokens m.debtToken = true
  plain : w.issuer.debtTokens u = false
  receipt : ∃ r, w.contracts m.debtToken = some (.receipt r) ∧ r.Held ∧ r.minter = me ∧
    r.debtor = m.debtor ∧ r.totalSupply = m.outstanding
  issued : m.outstanding + h.repaid u = totalIssued (h.issues u)
  contributed : h.contributed u = m.outstanding
  quota : Quota (h.issues u) m

structure Sound (w : World σ) (h : History) : Prop where
  held : ∀ a c, w.contracts a = some c → c.Held
  markets : ∀ u m, w.issuer.markets u = some m → Kept me w h u m
  apart : ∀ u u' m m', w.issuer.markets u = some m → w.issuer.markets u' = some m' →
    m.debtToken = m'.debtToken → u = u'
  fresh : ∀ u, w.issuer.markets u = none → h.issues u = [] ∧ h.repaid u = 0 ∧
    (w.issuer.debtTokens u = false → h.contributed u = 0)

variable {me} {w w' : World σ} {h h' : History} {u : Addr} {m m' : Market}

theorem Sound.debtToken_ne (hs : Sound me w h) {v : Addr} {mv : Market}
    (hm : w.issuer.markets u = some m) (hv : w.issuer.markets v = some mv) : mv.debtToken ≠ u := by
  intro heq
  have hflagged := (hs.markets v mv hv).flagged
  rw [heq, (hs.markets u m hm).plain] at hflagged
  cases hflagged

/-- A contract that is no market's receipt may change. -/
theorem Sound.setContract (hs : Sound me w h) {a : Addr} {c : Contract σ} (hc : c.Held)
    (hfree : ∀ u m, w.issuer.markets u = some m → m.debtToken ≠ a) :
    Sound me (w.setContract a c) h := by
  constructor
  · intro b c' hc'
    by_cases hb : b = a
    · rw [hb, World.setContract_self] at hc'
      cases hc'
      exact hc
    · rw [World.setContract_of_ne hb] at hc'
      exact hs.held b c' hc'
  · intro u m hm
    have hkept := hs.markets u m hm
    obtain ⟨r, hr, hrest⟩ := hkept.receipt
    exact { hkept with
      receipt := ⟨r, (World.setContract_of_ne (hfree u m hm)).trans hr, hrest⟩ }
  · exact hs.apart
  · exact hs.fresh

/-- The parts of the chain that the ledger does not mention. -/
theorem Sound.congr (hs : Sound me w h) (hissuer : w'.issuer.markets = w.issuer.markets)
    (htokens : w'.issuer.debtTokens = w.issuer.debtTokens)
    (hcontracts : w'.contracts = w.contracts) :
    Sound me w' h := by
  constructor
  · rw [hcontracts]
    exact hs.held
  · intro u m hm
    rw [hissuer] at hm
    have hkept := hs.markets u m hm
    exact { hkept with
      flagged := htokens ▸ hkept.flagged
      plain := htokens ▸ hkept.plain
      receipt := hcontracts ▸ hkept.receipt }
  · rw [hissuer]
    exact hs.apart
  · rw [hissuer, htokens]
    exact hs.fresh

/-- A move on one market: its own tokens and history may change, all else stays. -/
structure Moved (me : Addr) (w w' : World σ) (h h' : History) (u : Addr) (m m' : Market) :
    Prop where
  issuer : w'.issuer = saveMarket w.issuer u m'
  underlying : m'.underlying = m.underlying
  debtToken : m'.debtToken = m.debtToken
  contracts : ∀ a, a ≠ m.debtToken → w'.contracts a = w.contracts a
  issues : ∀ v, v ≠ u → h'.issues v = h.issues v
  repaid : ∀ v, v ≠ u → h'.repaid v = h.repaid v
  contributed : ∀ v, v ≠ u → v ≠ m.debtToken → h'.contributed v = h.contributed v
  receipt : ∃ r, w'.contracts m.debtToken = some (.receipt r) ∧ r.Held ∧ r.minter = me ∧
    r.debtor = m'.debtor ∧ r.totalSupply = m'.outstanding
  issued : m'.outstanding + h'.repaid u = totalIssued (h'.issues u)
  net : h'.contributed u = m'.outstanding
  quota : Quota (h'.issues u) m'

theorem Sound.moved (hs : Sound me w h) (hm : w.issuer.markets u = some m)
    (hmove : Moved me w w' h h' u m m') : Sound me w' h' := by
  have hkept := hs.markets u m hm
  have hself : w'.issuer.markets u = some m' := by
    rw [hmove.issuer]
    exact Function.update_self ..
  have hother : ∀ v, v ≠ u → w'.issuer.markets v = w.issuer.markets v := by
    intro v hv
    rw [hmove.issuer]
    exact Function.update_of_ne hv ..
  have htokens : w'.issuer.debtTokens = w.issuer.debtTokens := by
    rw [hmove.issuer]
    rfl
  have hback : ∀ v mv, w'.issuer.markets v = some mv →
      ∃ mv', w.issuer.markets v = some mv' ∧ mv'.debtToken = mv.debtToken := by
    intro v mv hv
    by_cases hvu : v = u
    · subst hvu
      cases hself.symm.trans hv
      exact ⟨m, hm, hmove.debtToken.symm⟩
    · exact ⟨mv, (hother v hvu).symm.trans hv, rfl⟩
  constructor
  · intro a c hc
    by_cases ha : a = m.debtToken
    · obtain ⟨r, hr, hheld, -⟩ := hmove.receipt
      rw [ha, hr] at hc
      cases hc
      exact hheld
    · rw [hmove.contracts a ha] at hc
      exact hs.held a c hc
  · intro v mv hv
    by_cases hvu : v = u
    · subst hvu
      cases hself.symm.trans hv
      exact {
        underlying := hmove.underlying.trans hkept.underlying
        flagged := by rw [htokens, hmove.debtToken]; exact hkept.flagged
        plain := by rw [htokens]; exact hkept.plain
        receipt := by rw [hmove.debtToken]; exact hmove.receipt
        issued := hmove.issued
        contributed := hmove.net
        quota := hmove.quota }
    · have hv' := (hother v hvu).symm.trans hv
      have hkept' := hs.markets v mv hv'
      have htoken : mv.debtToken ≠ m.debtToken := fun heq => hvu (hs.apart v u mv m hv' hm heq)
      have hvtoken : v ≠ m.debtToken := by
        intro heq
        have hplain := hkept'.plain
        rw [heq, hkept.flagged] at hplain
        cases hplain
      exact {
        underlying := hkept'.underlying
        flagged := by rw [htokens]; exact hkept'.flagged
        plain := by rw [htokens]; exact hkept'.plain
        receipt := by rw [hmove.contracts _ htoken]; exact hkept'.receipt
        issued := by rw [hmove.issues v hvu, hmove.repaid v hvu]; exact hkept'.issued
        contributed := by rw [hmove.contributed v hvu hvtoken]; exact hkept'.contributed
        quota := by rw [hmove.issues v hvu]; exact hkept'.quota }
  · intro v v' mv mv' hv hv' heq
    obtain ⟨x, hx, hxt⟩ := hback v mv hv
    obtain ⟨x', hx', hxt'⟩ := hback v' mv' hv'
    exact hs.apart v v' x x' hx hx' (by rw [hxt, hxt', heq])
  · intro v hv
    have hvu : v ≠ u := by
      intro heq
      rw [heq, hself] at hv
      cases hv
    rw [hother v hvu] at hv
    obtain ⟨hissues, hrepaid, hcontributed⟩ := hs.fresh v hv
    rw [hmove.issues v hvu, hmove.repaid v hvu, htokens]
    refine ⟨hissues, hrepaid, fun hplain => ?_⟩
    have hvtoken : v ≠ m.debtToken := by
      intro heq
      rw [heq, hkept.flagged] at hplain
      cases hplain
    rw [hmove.contributed v hvu hvtoken]
    exact hcontributed hplain

/-- A new market whose token is no receipt of another and whose receipt is no other's token. -/
theorem Sound.registered (hs : Sound me w h) {t : Addr} {r : Receipt}
    (hnew : w.issuer.markets u = none) (hunused : w.issuer.debtTokens t = false)
    (hplain : w.issuer.debtTokens u = false) (hfree : w.issuer.markets t = none) (hne : u ≠ t)
    (hm : m.underlying = u ∧ m.debtToken = t ∧ m.outstanding = 0 ∧ m.limits = none ∧
      m.epochIssued = 0)
    (hr : w.contracts t = some (.receipt r)) (hreceipt : r.minter = me ∧ r.debtor = m.debtor ∧
      r.totalSupply = 0)
    (hissuer : w'.issuer.markets = Function.update w.issuer.markets u (some m))
    (htokens : w'.issuer.debtTokens = Function.update w.issuer.debtTokens t true)
    (hcontracts : w'.contracts = w.contracts) : Sound me w' h := by
  obtain ⟨hmu, hmt, hmo, hml, hmi⟩ := hm
  obtain ⟨hissues, hrepaid, hcontributed⟩ := hs.fresh u hnew
  have hself : w'.issuer.markets u = some m := by
    rw [hissuer]
    exact Function.update_self ..
  have hother : ∀ v, v ≠ u → w'.issuer.markets v = w.issuer.markets v := by
    intro v hv
    rw [hissuer]
    exact Function.update_of_ne hv ..
  have htoken : ∀ v, v ≠ t → w'.issuer.debtTokens v = w.issuer.debtTokens v := by
    intro v hv
    rw [htokens]
    exact Function.update_of_ne hv ..
  have hdistinct : ∀ v mv, w.issuer.markets v = some mv → mv.debtToken ≠ t := by
    intro v mv hv heq
    have hflagged := (hs.markets v mv hv).flagged
    rw [heq, hunused] at hflagged
    cases hflagged
  constructor
  · rw [hcontracts]
    exact hs.held
  · intro v mv hv
    by_cases hvu : v = u
    · subst hvu
      cases hself.symm.trans hv
      constructor
      · exact hmu
      · rw [htokens, hmt]
        exact Function.update_self ..
      · rw [htoken v hne]
        exact hplain
      · rw [hcontracts, hmt, hmo]
        exact ⟨r, hr, hs.held t _ hr, hreceipt⟩
      · rw [hissues, hrepaid, hmo]
        rfl
      · rw [hcontributed hplain, hmo]
        rfl
      · rw [hissues]
        constructor
        · exact fun _ => ⟨rfl, hmi⟩
        all_goals
          intro l hl
          rw [hml] at hl
          cases hl
    · have hv' := (hother v hvu).symm.trans hv
      have hkept := hs.markets v mv hv'
      have hvt : v ≠ t := by
        intro heq
        rw [heq, hfree] at hv'
        cases hv'
      exact { hkept with
        flagged := by rw [htoken _ (hdistinct v mv hv')]; exact hkept.flagged
        plain := by rw [htoken v hvt]; exact hkept.plain
        receipt := by rw [hcontracts]; exact hkept.receipt }
  · intro v v' mv mv' hv hv' heq
    by_cases hvu : v = u
    · by_cases hvu' : v' = u
      · rw [hvu, hvu']
      · subst hvu
        cases hself.symm.trans hv
        exact absurd (heq.symm.trans hmt) (hdistinct v' mv' ((hother v' hvu').symm.trans hv'))
    · by_cases hvu' : v' = u
      · subst hvu'
        cases hself.symm.trans hv'
        exact absurd (heq.trans hmt) (hdistinct v mv ((hother v hvu).symm.trans hv))
      · exact hs.apart v v' mv mv' ((hother v hvu).symm.trans hv)
          ((hother v' hvu').symm.trans hv') heq
  · intro v hv
    have hvu : v ≠ u := by
      intro heq
      rw [heq, hself] at hv
      cases hv
    obtain ⟨hi, hr, hc⟩ := hs.fresh v ((hother v hvu).symm.trans hv)
    refine ⟨hi, hr, fun hvplain => hc ?_⟩
    have hvt : v ≠ t := by
      intro heq
      rw [htokens, heq, Function.update_self] at hvplain
      cases hvplain
    exact (htoken v hvt).symm.trans hvplain

end Cl8yDex.BridgeDebt
