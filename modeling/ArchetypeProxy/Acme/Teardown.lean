import ArchetypeProxy.Acme.Steps
import ArchetypeProxy.Library.Runs

/-!
# Withdrawal of challenge responses

The teardown stands after the authorization loop, and the loop has early
returns. A call leaves a response behind exactly when the loop stops at an
authorization after it has put up a response. Calls that do not, leave the
token store and the challenge map as empty as they found them.
-/

set_option autoImplicit false

namespace ArchetypeProxy.Acme.Teardown
open ArchetypeProxy.Acme.Certificate ArchetypeProxy.Acme.Issue ArchetypeProxy.Acme.Steps
open ArchetypeProxy.Fallible ArchetypeProxy.Runs ArchetypeProxy.StringMap

variable (crates : Crates) (cfg : AcmeConfig)

def actions (a : Attempt) (w : World) : List Action :=
  (issue crates cfg a w).2.log.drop w.log.length

/-- No token and no validation certificate of these actions is left, and the
published records were cleaned up. -/
structure Withdrawn (w : World) (done : List Action) : Prop where
  httpTokens : ∀ t ∈ tokens (installed done), t ∉ w.httpTokens
  challenges : ∀ d ∈ validated (installed done), d ∉ w.challenges
  records : cleaned done = records (installed done)

/-- The loop stops at an authorization, and for this one or one before it a
response was put up. -/
def FailsLate (replies : List (Except String Authorization)) : Prop :=
  ∃ before reply after, replies = before++reply::after ∧
    (∀ b ∈ before, proceeds cfg b = true) ∧ proceeds cfg reply = false ∧
      (response cfg reply ≠ none ∨ ∃ b ∈ before, response cfg b ≠ none)

/-- The order is created and its authorization loop fails late. -/
def Leaks (a : Attempt) (w : World) : Prop :=
  (AccountOpens crates cfg a w ∧ a.newOrder = .ok ()) ∧ FailsLate cfg a.authorizations

theorem planned_of_stop (before after : List (Except String Authorization))
    (reply : Except String Authorization) (hbefore : ∀ b ∈ before, proceeds cfg b = true)
    (hreply : proceeds cfg reply = false) :
    planned cfg (before++reply::after) =
      before.filterMap (response cfg)++(response cfg reply).toList := by
  rw [planned_append cfg before (reply::after) hbefore, planned, hreply]
  simp

theorem exists_stop (replies : List (Except String Authorization))
    (h : ¬ ∀ r ∈ replies, proceeds cfg r = true) :
    ∃ before reply after, replies = before++reply::after ∧
      (∀ b ∈ before, proceeds cfg b = true) ∧ proceeds cfg reply = false := by
  induction replies with
  | nil => simp at h
  | cons r replies ih =>
    cases hr : proceeds cfg r with
    | false => exact ⟨[],r,replies,rfl,by simp,hr⟩
    | true =>
      obtain ⟨before,reply,after,rfl,hbefore,hreply⟩ := ih (by simpa [hr] using h)
      exact ⟨r::before,reply,after,rfl,by simpa [hr] using hbefore,hreply⟩

theorem failsLate_iff (replies : List (Except String Authorization)) :
    FailsLate cfg replies ↔
      ¬ (∀ r ∈ replies, proceeds cfg r = true) ∧ planned cfg replies ≠ [] := by
  constructor
  · rintro ⟨before,reply,after,rfl,hbefore,hreply,hup⟩
    refine ⟨fun hall => ?_,?_⟩
    · have := hall reply (by simp)
      simp [hreply] at this
    · rw [planned_of_stop cfg before after reply hbefore hreply]
      rcases hup with hup|⟨b,hb,hup⟩
      · obtain ⟨r,hr⟩ := Option.ne_none_iff_exists'.mp hup
        simp [hr]
      · obtain ⟨r,hr⟩ := Option.ne_none_iff_exists'.mp hup
        exact List.append_ne_nil_of_left_ne_nil
          (List.ne_nil_of_mem (List.mem_filterMap.mpr ⟨b,hb,hr⟩)) _
  · rintro ⟨hall,hplanned⟩
    obtain ⟨before,reply,after,rfl,hbefore,hreply⟩ := exists_stop cfg replies hall
    refine ⟨before,reply,after,rfl,hbefore,hreply,?_⟩
    rw [planned_of_stop cfg before after reply hbefore hreply] at hplanned
    by_contra hnone
    simp only [not_or, not_exists, not_and, not_not] at hnone
    apply hplanned
    rw [hnone.1, List.filterMap_eq_nil_iff.mpr hnone.2]
    rfl

structure Placed (w w' : World) (done : List Action) (rs : List ChallengeResponse) : Prop where
  log : w'.log = w.log++done
  installed : installed done = rs
  cleaned : cleaned done = []
  httpTokens : ∀ t, t ∈ w'.httpTokens ↔ t ∈ w.httpTokens ∨ t ∈ tokens rs
  challenges : ∀ d, d ∈ w'.challenges ↔ d ∈ w.challenges ∨ d ∈ validated rs

theorem placed_of_quiet (w w' : World) (h : Quiet w w') : ∃ done, Placed w w' done [] := by
  obtain ⟨new,hlog,hnew⟩ := h.log
  refine ⟨new,hlog,List.filterMap_eq_nil_iff.mpr ?_,List.filterMap_eq_nil_iff.mpr ?_,
    by simp [h.httpTokens, tokens],by simp [h.challenges, validated]⟩
  all_goals
    intro action hmem
    obtain ⟨url,contacts,rfl⟩ := hnew action hmem
    rfl

theorem placed_of_tracks (w w₁ w₂ : World) (url : String) (new : List Action)
    (rs : List ChallengeResponse) (hquiet : Quiet w w₁)
    (htracks : Tracks cfg (w₁.note [.newOrder url cfg.domains]) w₂ new rs) :
    ∃ done, Placed w w₂ done rs := by
  obtain ⟨pre,hpre⟩ := placed_of_quiet w w₁ hquiet
  refine ⟨pre++([.newOrder url cfg.domains]++new),?_,?_,?_,?_,?_⟩
  · rw [htracks.log, note_log, hpre.log, List.append_assoc, List.append_assoc]
  · rw [installed_append, installed_append, hpre.installed, htracks.installed]
    rfl
  · rw [cleaned_append, cleaned_append, hpre.cleaned, htracks.cleaned]
    rfl
  · intro t
    rw [htracks.httpTokens, note_httpTokens, hquiet.httpTokens]
  · intro d
    rw [htracks.challenges, note_challenges, hquiet.challenges]

theorem eq_nil_of_kinds (rs : List ChallengeResponse) (ht : tokens rs = [])
    (hv : validated rs = []) (hr : records rs = []) : rs = [] := by
  rcases rs with _|⟨_|_|_,rs⟩
  · rfl
  · simp [tokens] at ht
  · simp [validated] at hv
  · simp [records] at hr

theorem withdrawn_placed_iff (w w' : World) (done : List Action) (rs : List ChallengeResponse)
    (h : Placed w w' done rs) : Withdrawn w' done ↔ rs = [] := by
  constructor
  · rintro ⟨hhttp,halpn,hdns⟩
    rw [h.installed] at hhttp halpn hdns
    refine eq_nil_of_kinds rs (List.eq_nil_iff_forall_not_mem.mpr fun t ht => ?_)
      (List.eq_nil_iff_forall_not_mem.mpr fun d hd => ?_) (hdns.symm.trans h.cleaned)
    · exact hhttp t ht ((h.httpTokens t).mpr (Or.inr ht))
    · exact halpn d hd ((h.challenges d).mpr (Or.inr hd))
  · rintro rfl
    refine ⟨?_,?_,?_⟩
    · simp [h.installed, tokens]
    · simp [h.installed, validated]
    · simp [h.installed, h.cleaned, Steps.records]

/-- What was put up is withdrawn, and nothing is added to the stores. -/
structure Restores (w w' : World) (done : List Action) : Prop where
  log : w'.log = w.log++done
  withdrawn : Withdrawn w' done
  httpTokens : ∀ t ∈ w'.httpTokens, t ∈ w.httpTokens
  challenges : ∀ d ∈ w'.challenges, d ∈ w.challenges

theorem restores_of_placed_nil (w w' : World) (done : List Action) (h : Placed w w' done []) :
    Restores w w' done := by
  refine ⟨h.log,(withdrawn_placed_iff w w' done [] h).mpr rfl,?_,?_⟩
  · simp [h.httpTokens, tokens]
  · simp [h.challenges, validated]

theorem restores_complete (acc : Account) (a : Attempt) (w w₂ : World) (done : List Action)
    (rs : List ChallengeResponse) (h : Placed w w₂ done rs) :
    ∃ done', Restores w (complete crates cfg acc (Active.add ⟨[],[],[]⟩ rs) a w₂).2 done' := by
  obtain ⟨hhttp,halpn,new,hlog,-,hinst,hclean,-⟩ :=
    complete_withdraws crates cfg acc (Active.add ⟨[],[],[]⟩ rs) a w₂
  have hall : installed (done++new) = rs := by
    rw [installed_append, h.installed, hinst, List.append_nil]
  refine ⟨done++new,by rw [hlog, h.log, List.append_assoc],⟨?_,?_,?_⟩,?_,?_⟩
  · rw [hall, hhttp]
    intro t ht
    simp [mem_eraseAll_iff, Active.add, ht]
  · rw [hall, halpn]
    intro d hd
    simp [mem_eraseAll_iff, Active.add, hd]
  · rw [hall, cleaned_append, h.cleaned, hclean]
    rfl
  · intro t
    rw [hhttp, mem_eraseAll_iff, h.httpTokens]
    simp [Active.add]
    tauto
  · intro d
    rw [halpn, mem_eraseAll_iff, h.challenges]
    simp [Active.add]
    tauto

theorem actions_of_log (a : Attempt) (w : World) (done : List Action)
    (h : (issue crates cfg a w).2.log = w.log++done) : actions crates cfg a w = done := by
  rw [actions, h, List.drop_left]

theorem issue_stores (a : Attempt) (w : World) :
    (Leaks crates cfg a w ∧ ¬ Withdrawn (issue crates cfg a w).2 (actions crates cfg a w)) ∨
      ¬ Leaks crates cfg a w ∧
        Restores w (issue crates cfg a w).2 (actions crates cfg a w) := by
  -- a call that restores the stores has the actions it restores them by
  have hrestores : ∀ done, Restores w (issue crates cfg a w).2 done →
      Restores w (issue crates cfg a w).2 (actions crates cfg a w) := fun done h =>
    (actions_of_log crates cfg a w done h.log).symm ▸ h
  obtain ⟨w₁,hquiet,-,⟨hopen,e,hissue⟩|⟨hopen,acc,new,w₂,-,htracks,hloop⟩⟩ :=
    issue_cases crates cfg a w
  · obtain ⟨done,hplaced⟩ := placed_of_quiet w w₁ hquiet
    refine Or.inr ⟨fun h => hopen h.1,hrestores done ?_⟩
    rw [hissue]
    exact restores_of_placed_nil w w₁ done hplaced
  · obtain ⟨done,hplaced⟩ := placed_of_tracks cfg w w₁ w₂ acc.directory new _ hquiet htracks
    rcases hloop with ⟨hall,e,hissue⟩|⟨hall,hissue⟩
    · by_cases hplanned : planned cfg a.authorizations = []
      · refine Or.inr ⟨fun h => ((failsLate_iff cfg _).mp h.2).2 hplanned,hrestores done ?_⟩
        rw [hissue]
        exact restores_of_placed_nil w w₂ done (hplanned ▸ hplaced)
      · refine Or.inl ⟨⟨hopen,(failsLate_iff cfg _).mpr ⟨hall,hplanned⟩⟩,?_⟩
        rw [actions, hissue, hplaced.log, List.drop_left, withdrawn_placed_iff w w₂ done _ hplaced]
        exact hplanned
    · obtain ⟨done',hdone'⟩ := restores_complete crates cfg acc a w w₂ done _ hplaced
      rw [← hissue] at hdone'
      exact Or.inr ⟨fun h => ((failsLate_iff cfg _).mp h.2).1 hall,hrestores done' hdone'⟩

theorem issue_withdraws_iff (a : Attempt) (w : World) :
    Withdrawn (issue crates cfg a w).2 (actions crates cfg a w) ↔ ¬ Leaks crates cfg a w := by
  rcases issue_stores crates cfg a w with ⟨hleak,hnot⟩|⟨hleak,hrestores⟩
  · exact iff_of_false hnot (not_not.mpr hleak)
  · exact iff_of_true hrestores.withdrawn hleak

def Idle (w : World) : Prop := w.httpTokens = ∅ ∧ w.challenges = ∅

theorem idle_issue (a : Attempt) (w : World) (h : Idle w) (hleak : ¬ Leaks crates cfg a w) :
    Idle (issue crates cfg a w).2 := by
  rcases issue_stores crates cfg a w with ⟨hl,-⟩|⟨-,-,-,htokens,hchallenges⟩
  · exact absurd hl hleak
  · rw [h.1] at htokens
    rw [h.2] at hchallenges
    constructor
    · refine Std.ExtTreeMap.eq_empty_iff_forall_not_mem.mpr fun t ht => ?_
      exact Std.ExtTreeMap.not_mem_empty (htokens t ht)
    · refine Std.ExtTreeMap.eq_empty_iff_forall_not_mem.mpr fun d hd => ?_
      exact Std.ExtTreeMap.not_mem_empty (hchallenges d hd)

/-- A call withdraws what it installed exactly when it does not leak, and
after calls that do not leak nothing is installed. -/
theorem responses_withdrawn_iff_no_leak :
    (∀ a w, Withdrawn (issue crates cfg a w).2 (actions crates cfg a w) ↔
        ¬ Leaks crates cfg a w) ∧
      ∀ w attempts, Idle w →
        Throughout (fun w a => (issue crates cfg a w).2) (fun w a => ¬ Leaks crates cfg a w) w
          attempts →
        Idle (run (fun w a => (issue crates cfg a w).2) w attempts) := by
  refine ⟨issue_withdraws_iff crates cfg,fun w attempts hidle hok => ?_⟩
  exact run_invariant_of_throughout _ Idle _
    (fun w a h hleak => idle_issue crates cfg a w h hleak) w hidle attempts hok

def twoDomains : AcmeConfig := ⟨["a","b"],none,.http01,none,false,none,none,.manual⟩

def bothPending : Attempt :=
  smoothAttempt [.ok (pendingAuthz .http01 "a"),.ok (pendingAuthz .http01 "b")] ⟨"Z","Z"⟩

theorem two_orders_leave_nothing :
    Idle (run (fun w a => (issue charCrates twoDomains a w).2) emptyWorld
      [bothPending,bothPending]) := by
  have hproceed : ∀ r ∈ bothPending.authorizations, proceeds twoDomains r = true := by decide
  have hleak : ∀ w, ¬ Leaks charCrates twoDomains bothPending w := by
    intro w h
    exact ((failsLate_iff twoDomains _).mp h.2).1 hproceed
  refine (responses_withdrawn_iff_no_leak charCrates twoDomains).2 emptyWorld _ ⟨rfl,rfl⟩ ?_
  rw [throughout_cons, throughout_cons]
  exact ⟨hleak _,hleak _,throughout_nil _ _ _⟩

def secondRefused : Attempt :=
  smoothAttempt [.ok (pendingAuthz .http01 "a"),.ok ⟨"b",.invalid,[]⟩] ⟨"Z","Z"⟩

theorem refused_domain_leaves_token :
    (issue charCrates twoDomains secondRefused emptyWorld).1 =
        .error (.authorization "b" .invalid) ∧
      ¬ Withdrawn (issue charCrates twoDomains secondRefused emptyWorld).2
        (actions charCrates twoDomains secondRefused emptyWorld) := by
  have hstore : (issue charCrates twoDomains secondRefused emptyWorld).2.httpTokens =
      (∅ : Std.ExtTreeMap String String).insert "a" "a" := by rfl
  have hinstalled : installed (actions charCrates twoDomains secondRefused emptyWorld) =
      [.http01 "a" "a"] := by rfl
  refine ⟨by rfl,fun hw => ?_⟩
  refine hw.httpTokens "a" (by rw [hinstalled]; decide) ?_
  rw [hstore, mem_insert_string_iff]
  exact Or.inr rfl

end ArchetypeProxy.Acme.Teardown
