import Mathlib.Data.Prod.Lex
import ZedBot.Conversions.Evaluator

/-! The winning click of an order.

    The candidates are ordered by a rank that no two of them share, so the first of them does not
    depend on the order in which the clicks come.

        rank:  kind precedence ─ latest click ─ interaction id -/

namespace ZedBot.Conversions

variable {order : AttributionOrder} {config : AttributionConfig}
  {it it' : AttributionInteraction} {interactions : List AttributionInteraction}
  {d d' : AttributionDecision} {candidates : List AttributionDecision}

/-! ### The rank -/

/-- Where a decision stands: smaller is better. -/
def AttributionDecision.rank (d : AttributionDecision) : ℤ ×ₗ ℤ ×ₗ String :=
  toLex (ATTRIBUTION_KIND_PRECEDENCE d.kind, toLex (-d.interactionAt, d.interactionId))

/-- The comparator compares ranks. -/
theorem compareDecisions_le (a b : AttributionDecision) :
    compareDecisions a b ≤ 0 ↔ a.rank ≤ b.rank := by
  rw [compareDecisions, AttributionDecision.rank, AttributionDecision.rank, Prod.Lex.toLex_le_toLex,
    Prod.Lex.toLex_le_toLex]
  dsimp only
  split_ifs with hkind hclick hlt hgt
  · omega
  · omega
  · simp only [not_not] at hkind hclick
    simp [hkind, hclick, hlt.le]
  · simp only [not_not] at hkind hclick
    simp [hkind, hclick, hgt]
  · simp only [not_not] at hkind hclick
    simp [hkind, hclick, not_lt.mp hgt]

theorem eq_id_of_rank (h : d.rank = d'.rank) : d.interactionId = d'.interactionId :=
  (Prod.mk.inj (toLex.injective (Prod.mk.inj (toLex.injective h)).2)).2

/-- The winner is a candidate, and no candidate ranks before it. -/
theorem winner_min (h : selectAttributionWinner candidates = some d) :
    d ∈ candidates ∧ ∀ x ∈ candidates, d.rank ≤ x.rank := by
  have hperm : (rankAttributionCandidates candidates).Perm candidates := List.perm_insertionSort _ _
  have hsorted : (rankAttributionCandidates candidates).Pairwise fun a b => a.rank ≤ b.rank := by
    have hranked : rankAttributionCandidates candidates =
        candidates.insertionSort fun a b => a.rank ≤ b.rank := by
      simp only [rankAttributionCandidates, compareDecisions_le]
    rw [hranked]
    exact List.pairwise_insertionSort (fun a b : AttributionDecision => a.rank ≤ b.rank) candidates
  rw [selectAttributionWinner] at h
  obtain ⟨rest, hrest⟩ := List.head?_eq_some_iff.mp h
  rw [hrest] at hperm hsorted
  refine ⟨hperm.subset (.head _), fun x hx => ?_⟩
  rcases List.mem_cons.mp (hperm.symm.subset hx) with rfl | hx
  · exact le_refl _
  · exact List.rel_of_pairwise_cons hsorted hx

theorem winner_none : selectAttributionWinner candidates = none ↔ candidates = [] := by
  have hperm : (rankAttributionCandidates candidates).Perm candidates := List.perm_insertionSort _ _
  rw [selectAttributionWinner, List.head?_eq_none_iff, ← List.length_eq_zero_iff, hperm.length_eq,
    List.length_eq_zero_iff]

/-! ### Evidence -/

/-- The evidence for a kind: sent before clicked before completed, the link of the kind, its window. -/
structure Qualifies (order : AttributionOrder) (config : AttributionConfig) (it : AttributionInteraction)
    (kind : AttributionKind) : Prop where
  clicked : it.notificationSentAt < it.interactionAt
  completed : it.interactionAt < order.orderCompletedAt
  linked : isLinked order it kind = true
  inWindow : order.orderCompletedAt - it.interactionAt ≤ windowLimitMs config kind

/-- The strongest kind that an interaction qualifies for. -/
structure Strongest (order : AttributionOrder) (config : AttributionConfig) (it : AttributionInteraction)
    (kind : AttributionKind) : Prop extends Qualifies order config it kind where
  strongest : ∀ other, Qualifies order config it other →
    ATTRIBUTION_KIND_PRECEDENCE kind ≤ ATTRIBUTION_KIND_PRECEDENCE other

/-- The kinds from the strongest on. -/
def kinds : List AttributionKind := [.DIRECT_CHECKOUT, .DIRECT_SERVICE, .ASSISTED_WINBACK]

theorem kinds_sorted : kinds.Pairwise fun a b =>
    ATTRIBUTION_KIND_PRECEDENCE a ≤ ATTRIBUTION_KIND_PRECEDENCE b := by decide

theorem mem_kinds (kind : AttributionKind) : kind ∈ kinds := by cases kind <;> decide

/-- The first kind that is met is the strongest. -/
theorem find_kinds {p : AttributionKind → Bool} {kind : AttributionKind}
    (h : kinds.find? p = some kind) : p kind = true ∧ ∀ other, p other = true →
      ATTRIBUTION_KIND_PRECEDENCE kind ≤ ATTRIBUTION_KIND_PRECEDENCE other := by
  obtain ⟨hp, before, after, hsplit, hbefore⟩ := List.find?_eq_some_iff_append.mp h
  refine ⟨hp, fun other hother => ?_⟩
  have hsorted := kinds_sorted
  have hmem := mem_kinds other
  rw [hsplit] at hsorted hmem
  rcases List.mem_append.mp hmem with hmem | hmem
  · have hnot := hbefore other hmem
    rw [hother] at hnot
    cases hnot
  · rcases List.mem_cons.mp hmem with rfl | hmem
    · exact le_refl _
    · exact List.rel_of_pairwise_cons (List.pairwise_append.mp hsorted).2.1 hmem

/-- A click between the sending and the completion qualifies as its kind says. -/
theorem qualifies_iff {kind : AttributionKind}
    (hclick : it.notificationSentAt < it.interactionAt ∧ it.interactionAt < order.orderCompletedAt) :
    Qualifies order config it kind ↔ decide (isLinked order it kind = true ∧
      order.orderCompletedAt - it.interactionAt ≤ windowLimitMs config kind) = true := by
  rw [decide_eq_true_iff]
  exact ⟨fun h => ⟨h.linked, h.inWindow⟩, fun h => ⟨hclick.1, hclick.2, h.1, h.2⟩⟩

/-- A decision is for the strongest kind. -/
theorem classifyPair_some (h : classifyPair order it config = some d) :
    Strongest order config it d.kind ∧ d.interactionId = it.interactionId ∧
      d.interactionAt = it.interactionAt := by
  rw [classifyPair] at h
  split_ifs at h with hclick
  split at h
  · cases h
  · rename_i kind hkind
    obtain rfl := Option.some.inj h
    have hfind : kinds.find? (fun kind => decide (isLinked order it kind = true ∧
        order.orderCompletedAt - it.interactionAt ≤ windowLimitMs config kind)) = some kind := hkind
    obtain ⟨hmet, hstrongest⟩ := find_kinds hfind
    exact ⟨⟨(qualifies_iff hclick).mpr hmet, fun other hother =>
      hstrongest other ((qualifies_iff hclick).mp hother)⟩, rfl, rfl⟩

theorem classifyPair_isSome :
    (∃ d, classifyPair order it config = some d) ↔ ∃ kind, Qualifies order config it kind := by
  refine ⟨fun ⟨d, hd⟩ => ⟨d.kind, (classifyPair_some hd).1.toQualifies⟩, fun ⟨kind, hkind⟩ => ?_⟩
  have hclick := And.intro hkind.clicked hkind.completed
  rw [classifyPair, if_neg (not_not.mpr hclick)]
  cases hnone : kindOf order it config with
  | none =>
    have hnot := List.find?_eq_none.mp hnone kind (mem_kinds kind)
    exact absurd ((qualifies_iff hclick).mp hkind) hnot
  | some found => exact ⟨_, rfl⟩

/-! ### The evaluation -/

/-- An order that is not out of scope: analytics had started, and the sale stands. -/
def InScope (order : AttributionOrder) : Prop :=
  (∃ started ∈ order.analyticsStartedAt, started ≤ order.orderCompletedAt) ∧ order.isRefunded = false

/-- The winning decision of an evaluation. -/
def AttributionEvaluation.winner : AttributionEvaluation → Option AttributionDecision
  | .attributed decision _ => some decision
  | .skipped _ _ => none

def candidatesOf (order : AttributionOrder) (interactions : List AttributionInteraction)
    (config : AttributionConfig) : List AttributionDecision :=
  interactions.filterMap (classifyPair order · config)

/-- The winner of an evaluation: the best candidate of an order in scope. -/
theorem evaluate_winner (order : AttributionOrder) (interactions : List AttributionInteraction)
    (config : AttributionConfig) :
    (InScope order → (evaluateNotificationAttributionCandidate order interactions config).winner =
        selectAttributionWinner (candidatesOf order interactions config)) ∧
      (¬ InScope order →
        (evaluateNotificationAttributionCandidate order interactions config).winner = none) := by
  rw [evaluateNotificationAttributionCandidate]
  split
  · rename_i hnone
    refine ⟨fun h => ?_, fun _ => rfl⟩
    obtain ⟨⟨started, hstarted, -⟩, -⟩ := h
    rw [hnone] at hstarted
    cases hstarted
  · rename_i started hstarted
    split_ifs with hbefore hrefunded
    · refine ⟨fun h => ?_, fun _ => rfl⟩
      obtain ⟨⟨started', hstarted', hle⟩, -⟩ := h
      rw [hstarted] at hstarted'
      cases hstarted'
      exact absurd hbefore (not_lt.mpr hle)
    · refine ⟨fun h => ?_, fun _ => rfl⟩
      rw [h.2] at hrefunded
      cases hrefunded
    · have hscope : InScope order :=
        ⟨⟨started, hstarted, not_lt.mp hbefore⟩, Bool.eq_false_iff.mpr hrefunded⟩
      refine ⟨fun _ => ?_, fun h => absurd hscope h⟩
      rw [candidatesOf]
      dsimp only
      cases selectAttributionWinner (interactions.filterMap (classifyPair order · config)) with
      | none => rfl
      | some winner => rfl

/-- A candidate is the decision of a click. -/
theorem mem_candidatesOf :
    d ∈ candidatesOf order interactions config ↔
      ∃ it ∈ interactions, classifyPair order it config = some d := List.mem_filterMap

/-- Candidates of distinct clicks have distinct ids. -/
theorem candidates_nodup (hdistinct : (interactions.map AttributionInteraction.interactionId).Nodup) :
    (candidatesOf order interactions config).Pairwise fun a b => a.interactionId ≠ b.interactionId := by
  refine List.pairwise_filterMap.mpr ((List.pairwise_map.mp hdistinct).imp ?_)
  intro it it' hne d hd d' hd' heq
  rw [(classifyPair_some hd).2.1, (classifyPair_some hd').2.1] at heq
  exact hne heq

/-- Two decisions of candidates with one id are one. -/
theorem eq_of_id (hdistinct : (interactions.map AttributionInteraction.interactionId).Nodup)
    (hd : d ∈ candidatesOf order interactions config)
    (hd' : d' ∈ candidatesOf order interactions config) (h : d.interactionId = d'.interactionId) :
    d = d' := by
  obtain ⟨it, hit, hclass⟩ := mem_candidatesOf.mp hd
  obtain ⟨it', hit', hclass'⟩ := mem_candidatesOf.mp hd'
  have hsame : it.interactionId = it'.interactionId := by
    rw [← (classifyPair_some hclass).2.1, ← (classifyPair_some hclass').2.1, h]
  obtain rfl : it = it' := List.inj_on_of_nodup_map hdistinct hit hit' hsame
  exact Option.some.inj (hclass.symm.trans hclass')

/-- PERM: the winner does not depend on the order of the candidates. -/
theorem winner_perm (hdistinct : (interactions.map AttributionInteraction.interactionId).Nodup)
    {other : List AttributionInteraction} (hperm : interactions.Perm other) :
    selectAttributionWinner (candidatesOf order other config) =
      selectAttributionWinner (candidatesOf order interactions config) := by
  have hcandidates : (candidatesOf order interactions config).Perm (candidatesOf order other config) :=
    hperm.filterMap _
  cases hwinner : selectAttributionWinner (candidatesOf order interactions config) with
  | none =>
    rw [winner_none] at hwinner ⊢
    rw [hwinner] at hcandidates
    exact hcandidates.symm.eq_nil
  | some d =>
    cases hwinner' : selectAttributionWinner (candidatesOf order other config) with
    | none =>
      rw [winner_none.mp hwinner'] at hcandidates
      rw [winner_none.mpr hcandidates.eq_nil] at hwinner
      cases hwinner
    | some d' =>
      obtain ⟨hmem, hmin⟩ := winner_min hwinner
      obtain ⟨hmem', hmin'⟩ := winner_min hwinner'
      have hin := hcandidates.symm.subset hmem'
      have hrank := le_antisymm (hmin d' hin) (hmin' d (hcandidates.subset hmem))
      rw [eq_of_id hdistinct hmem hin (eq_id_of_rank hrank)]

/-- One click with its kind stands before another: a stronger kind, a later click, a smaller id. -/
def IsBefore (kind : AttributionKind) (it : AttributionInteraction) (kind' : AttributionKind)
    (it' : AttributionInteraction) : Prop :=
  ATTRIBUTION_KIND_PRECEDENCE kind < ATTRIBUTION_KIND_PRECEDENCE kind' ∨
    ATTRIBUTION_KIND_PRECEDENCE kind = ATTRIBUTION_KIND_PRECEDENCE kind' ∧
      (it'.interactionAt < it.interactionAt ∨
        it'.interactionAt = it.interactionAt ∧ it.interactionId < it'.interactionId)

/-- The attribution of an order to its best click. -/
structure Attributed (order : AttributionOrder) (config : AttributionConfig)
    (interactions : List AttributionInteraction) : Prop where
  independent : ∀ other, interactions.Perm other →
    (evaluateNotificationAttributionCandidate order other config).winner =
      (evaluateNotificationAttributionCandidate order interactions config).winner
  backed : (∃ d, (evaluateNotificationAttributionCandidate order interactions config).winner = some d) ↔
    InScope order ∧ ∃ it ∈ interactions, ∃ kind, Qualifies order config it kind
  best : ∀ d, (evaluateNotificationAttributionCandidate order interactions config).winner = some d →
    ∃ it ∈ interactions, d.interactionId = it.interactionId ∧ Strongest order config it d.kind ∧
      ∀ it' ∈ interactions, it' ≠ it → ∀ kind, Strongest order config it' kind →
        IsBefore d.kind it kind it'

/-- The winner is the best of the clicks with evidence, in whatever order they come. -/
theorem attribution_of_best (order : AttributionOrder) (config : AttributionConfig)
    (interactions : List AttributionInteraction)
    (hdistinct : (interactions.map AttributionInteraction.interactionId).Nodup) :
    Attributed order config interactions := by
  by_cases hscope : InScope order
  · have hwinner := fun interactions => (evaluate_winner order interactions config).1 hscope
    refine ⟨fun other hperm => ?_, ?_, fun d hd => ?_⟩
    · rw [hwinner, hwinner]
      exact winner_perm hdistinct hperm
    · rw [hwinner]
      constructor
      · rintro ⟨d, hd⟩
        obtain ⟨it, hit, hclass⟩ := mem_candidatesOf.mp (winner_min hd).1
        exact ⟨hscope, it, hit, d.kind, (classifyPair_some hclass).1.toQualifies⟩
      · rintro ⟨-, it, hit, hkind⟩
        obtain ⟨d, hd⟩ := classifyPair_isSome.mpr hkind
        refine Option.ne_none_iff_exists'.mp fun hnone => ?_
        have hmem : d ∈ candidatesOf order interactions config := mem_candidatesOf.mpr ⟨it, hit, hd⟩
        rw [winner_none.mp hnone] at hmem
        cases hmem
    · rw [hwinner] at hd
      obtain ⟨hmem, hmin⟩ := winner_min hd
      obtain ⟨it, hit, hclass⟩ := mem_candidatesOf.mp hmem
      obtain ⟨hstrongest, hid, hclick⟩ := classifyPair_some hclass
      refine ⟨it, hit, hid, hstrongest, fun it' hit' hne kind hkind => ?_⟩
      obtain ⟨d', hclass'⟩ := classifyPair_isSome.mpr ⟨kind, hkind.toQualifies⟩
      obtain ⟨hstrongest', hid', hclick'⟩ := classifyPair_some hclass'
      have hsame : ATTRIBUTION_KIND_PRECEDENCE d'.kind = ATTRIBUTION_KIND_PRECEDENCE kind :=
        le_antisymm (hstrongest'.strongest kind hkind.toQualifies)
          (hkind.strongest d'.kind hstrongest'.toQualifies)
      have hids : it.interactionId ≠ it'.interactionId := fun heq =>
        hne (List.inj_on_of_nodup_map hdistinct hit' hit heq.symm)
      have hrank := hmin d' (mem_candidatesOf.mpr ⟨it', hit', hclass'⟩)
      rw [AttributionDecision.rank, AttributionDecision.rank, Prod.Lex.toLex_le_toLex,
        Prod.Lex.toLex_le_toLex, hsame, hid, hid', hclick, hclick'] at hrank
      rcases hrank with hkind | ⟨hkind, hclick | ⟨hclick, hle⟩⟩
      · exact .inl hkind
      · exact .inr ⟨hkind, .inl (Int.neg_lt_neg_iff.mp hclick)⟩
      · exact .inr ⟨hkind, .inr ⟨Int.neg_inj.mp hclick.symm, lt_of_le_of_ne hle hids⟩⟩
  · have hwinner := fun interactions => (evaluate_winner order interactions config).2 hscope
    refine ⟨fun other _ => by rw [hwinner, hwinner], ?_, fun d hd => ?_⟩
    · rw [hwinner]
      exact ⟨fun ⟨d, hd⟩ => absurd hd nofun, fun h => absurd h.1 hscope⟩
    · rw [hwinner] at hd
      cases hd

/-! ### Two orders -/

/-- A renewal of a service. -/
def renewal (isRefunded : Bool) : AttributionOrder where
  orderType := .SERVICE_RENEWAL
  orderCompletedAt := 1000
  finalPriceToman := 50000
  checkoutSessionId := some "c"
  serviceId := some "s"
  isRefunded
  analyticsStartedAt := some 0

def clickOf (id : String) (type : NotificationType) (action : NotificationInteractionType) (click : ℤ) :
    AttributionInteraction where
  interactionId := id
  notificationId := id
  notificationType := type
  interactionType := action
  notificationSentAt := 10
  interactionAt := click
  notificationCheckoutSessionId := some "c"
  notificationServiceId := some "s"

/-- Two clicks on the service, and one on the checkout that is older. -/
def threeClicks : List AttributionInteraction :=
  [clickOf "b" .SERVICE_EXPIRY .RENEW_SERVICE 900, clickOf "a" .SERVICE_EXPIRY .OPEN_SERVICE 900,
    clickOf "z" .PAYMENT_RETRY .CONTINUE_CHECKOUT 20]

theorem attribution_of_best_three :
    ((evaluateNotificationAttributionCandidate (renewal false) threeClicks
        DEFAULT_ATTRIBUTION_CONFIG).winner.map AttributionDecision.interactionId) = some "z" ∧
      Attributed (renewal false) DEFAULT_ATTRIBUTION_CONFIG threeClicks :=
  ⟨by decide +kernel, attribution_of_best (renewal false) _ threeClicks (by decide)⟩

/-- A refunded order has no winner, whatever the evidence. -/
theorem attribution_refunded : ¬ ∀ (order : AttributionOrder) (config : AttributionConfig)
    (interactions : List AttributionInteraction),
      (interactions.map AttributionInteraction.interactionId).Nodup →
        ((∃ d, (evaluateNotificationAttributionCandidate order interactions config).winner = some d) ↔
          ∃ it ∈ interactions, ∃ kind, Qualifies order config it kind) := by
  intro h
  have hclaim := h (renewal true) DEFAULT_ATTRIBUTION_CONFIG threeClicks (by decide)
  obtain ⟨d, hd⟩ := hclaim.mpr ⟨_, .head _, .DIRECT_SERVICE, by decide, by decide, by decide, by decide⟩
  cases hd

end ZedBot.Conversions
