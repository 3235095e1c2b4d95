/-
  PageAssembly/Proofs/Inclusion/Endless.lean
  ==========================================
  **A page whose includes do not come to an end.**

  The one include of the page brings in the page itself, and its key has the token in it.
  So every time the page is opened the key is new: not further up, not cached, and not
  fetched before.  A pass over such a page reaches every bound (`resolve_endless`), if
  the tokens are all different.
-/
import PageAssembly.Proofs.Inclusion.Termination

namespace PageAssembly.Resolution

open Verbatim (IsToken placeholder)

section

variable {τ : Type} [Sub τ] [LT τ] [DecidableLT τ] {env : Setting Unit τ}

/-- The key of no token that is still to be drawn was met. -/
def Unmet (key : Nat → Text) (above : List Text) (p : Pass Unit τ) : Prop :=
  ∀ m, p.drawn ≤ m → key m ∉ above ∧ p.cache.entry? (key m) = none ∧ p.fetched.get? (key m) = none

/-- A page whose one include brings in the page itself, each time under another key, is
    resolved without end. -/
theorem resolve_endless (pages : Pages) (hhost : env.host = Host.ofAnswers pages.answers) {s : Text}
    (key : Nat → Text) (hkey : Function.Injective key) (hblocks : Verbatim.hasBlocks s = true)
    (hforce : ∀ n, Aliases.extend OrderedMap.empty (Alias.defined (Verbatim.mask (env.token n) s)) =
      OrderedMap.empty)
    (hplans : ∀ n contract, ∃ p, plans (env.token n) s contract OrderedMap.empty = [p] ∧
      p.key = key n ∧ pages.calledBy p = some s)
    (depth : Nat) (contract : Text) (above : List Text) {p : Pass Unit τ} (hp : Unmet key above p) :
    ((resolve env depth s contract above OrderedMap.empty).run p).1 = .error .tooDeep := by
  induction depth generalizing contract above p with
  | zero => rfl
  | succ depth ih =>
    obtain ⟨i, hi, hikey, hcalled⟩ := hplans p.drawn contract
    obtain ⟨habove, hentry, hfetched⟩ := hp p.drawn (Nat.le_refl _)
    have hraw : Host.content (i.call env.viewer OrderedMap.empty)
        (env.host.answer (i.call env.viewer OrderedMap.empty) p.exchange.world).1 = .ok s := by
      rw [hhost, Host.content_ofAnswers, Pages.answers_of_calledBy hcalled]
      rfl
    have hdrawn : drawnAfter s p.drawn = p.drawn + 1 := if_pos hblocks
    have hstep : (resolve env (depth + 1) s contract above OrderedMap.empty).run p =
        (resolveMasked (resolve env depth) env (env.token p.drawn) s contract above OrderedMap.empty).run
          { p with drawn := p.drawn + 1 } := by
      rw [← hdrawn]
      exact resolveWith_run ..
    rw [hstep]
    rw [← hikey] at habove hentry hfetched
    obtain ⟨exchange, houtcome⟩ := outcome_of_new (resolve env depth) env OrderedMap.empty
      (q := { p with drawn := p.drawn + 1 }) habove hentry hfetched hraw
    -- the page below, where one more key is met and one more token is drawn
    have hbelow := ih i.target (i.key :: above)
      (p := { p with exchange, drawn := p.drawn + 1, fetched := p.fetched.insert i.key (.ok s) }) ?unmet
    case unmet =>
      intro m hm
      obtain ⟨habove', hentry', hfetched'⟩ := hp m (Nat.le_of_succ_le hm)
      have hne : i.key ≠ key m := by
        rw [hikey]
        exact fun h => absurd (hkey h) (Nat.ne_of_lt hm)
      refine ⟨?_, hentry', ?_⟩
      · rw [List.mem_cons, not_or]
        exact ⟨hne.symm, habove'⟩
      · rw [OrderedMap.get?_insert, if_neg hne]
        exact hfetched'
    have hone := bind_run_error hbelow fun child => do
      keep env i.key child.content
      pure (⟨child.content, child.cyclic, false⟩ : Outcome)
    rw [← houtcome] at hone
    simp only [resolveMasked, hforce, hi]
    exact bind_run_error (bind_run_error hone _) _

end

def feedingKey (t : Text) : Text := "X:||p=".toList ++ placeholder t 0

theorem feedingKey_injective {t t' : Text} (h : feedingKey t = feedingKey t') : t = t' :=
  Verbatim.eq_of_placeholder_eq (List.append_cancel_left h)

def feedingPages : Pages := [(("X".toList, "render".toList), feedingText)]

/-- A pass over the page that includes itself, with a supply of tokens that never ends. -/
def feedingSetting : Setting Unit Nat := { feedingPages.setting with token := Text.decimal }

theorem isToken_feeding (n : Nat) : IsToken (feedingSetting.token n) := by
  have hdigits : ∀ c ∈ "0123456789".toList, c ∈ "0123456789abcdef".toList := by decide
  refine ⟨?_, fun c hc => hdigits c (Verbatim.mem_decimal hc)⟩
  exact List.ne_nil_of_length_pos Nat.length_toDigits_pos

/-- On the page that includes itself with a block among the parameters, a pass reaches
    every bound, although there is but one page and no token is drawn twice. -/
theorem run_feedingText :
    Function.Injective feedingSetting.token ∧ ∀ depth,
      (run feedingSetting depth feedingText "P".toList OrderedMap.empty .new).1 = .error .tooDeep := by
  have hinjective : ∀ m n, feedingSetting.token m = feedingSetting.token n → m = n :=
    fun m n h => Text.decimal_injective h
  refine ⟨hinjective, fun depth => ?_⟩
  refine resolve_endless feedingPages rfl (fun n => feedingKey (feedingSetting.token n))
    (fun m n h => hinjective m n (feedingKey_injective h)) (by decide +kernel) (fun n => ?_)
    (fun n contract => ?_) depth _ _ fun m _ => ⟨List.not_mem_nil, rfl, rfl⟩
  · rw [Alias.defined, find_feedingText (isToken_feeding n)]
    rfl
  · obtain ⟨i, hi, hfunc⟩ := plans_feedingText (isToken_feeding n) contract
    refine ⟨_, hi, rfl, ?_⟩
    rw [Pages.calledBy, hfunc]
    rfl

end PageAssembly.Resolution
