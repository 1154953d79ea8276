import ZedBot.ForceJoin.Retirement

/-! # Retirements in every run

    Whatever the calls interleave, the facts tell what the tables say: each counted failure is an
    unverifiable answer to a check of its own, and a success since the last reset is one whose
    snapshot showed no failure, or whose reset has not been committed. -/

namespace ZedBot.ForceJoin

variable {db : Db} {id : String} {k : ℕ} {now : ℤ} {s s' : World} {check : Check}

/-! ### The transactions never meet a unique column -/

theorem uniqueKeys_deactivate {configs : List ChannelConfig} (h : UniqueKeys configs)
    (id : String) : UniqueKeys (edit id (setActive false) configs) := by
  have hkey : ∀ {α : Type} (key : ChannelConfig → α), (∀ c, key (setActive false c) = key c) →
      (edit id (setActive false) configs).map key = configs.map key := by
    intro α key hsame
    rw [edit, List.map_map]
    refine List.map_congr_left fun c _ => ?_
    rw [Function.comp_apply]
    split_ifs
    · exact hsame c
    · rfl
  rw [UniqueKeys, hkey _ fun _ => rfl, hkey _ fun _ => rfl, hkey _ fun _ => rfl]
  exact h

theorem finish_failure (h : UniqueKeys db.configs) (id : String) (now : ℤ) :
    finish (failureOf id now) db db =
      ((plan db (failureOf id now)).outcome,
        (plan db (failureOf id now)).writes.foldl Write.apply db) := by
  rw [finish]
  refine if_pos ?_
  have hfailed : Failed db id "UNVERIFIABLE" now (plan db (failureOf id now)) :=
    failed db id "UNVERIFIABLE" now
  generalize plan db (failureOf id now) = p at hfailed ⊢
  cases hfailed with
  | uncounted => exact h
  | counted row =>
    rw [configs_foldl]
    change UniqueKeys (edit id (fun c => c) db.configs)
    rw [edit_same]
    exact h
  | retired row =>
    rw [(retire_writes row "UNVERIFIABLE" now db db).1]
    exact uniqueKeys_deactivate h row.id

theorem finish_success (h : UniqueKeys db.configs) (id : String) :
    (finish (.recordChannelHealthSuccess id) db db).2 =
      (recordChannelHealthSuccess id).writes.foldl Write.apply db := by
  have hsame : ((recordChannelHealthSuccess id).writes.foldl Write.apply db).configs =
      db.configs := by
    rw [configs_foldl]
    exact edit_same id db.configs
  rw [finish]
  exact congrArg Prod.snd (if_pos (hsame.symm ▸ h))

theorem uniqueKeys_finish (h : UniqueKeys db.configs) (op : Operation) :
    UniqueKeys (finish op db db).2.configs := by
  rw [finish]
  split_ifs with hunique
  · exact hunique
  · exact h

/-! ### What an event does -/

/-- How an event moves its check, with the tables afterwards and the facts it adds. -/
inductive Reacted (s : World) (k : ℕ) (check : Check) : Progress → Db → List Fact → Prop
  | cached (hwaiting : check.progress = .waiting) (joined : Bool) :
      Reacted s k check (.done (verdict joined)) s.db []
  | answered (hwaiting : check.progress = .waiting) (response : Response) :
      Reacted s k check (answerProgress check.channel response) s.db
        [.answered k check.channel.id response]
  | cleared (joined : Bool) (hclearing : check.progress = .clearing joined) :
      Reacted s k check (.done (verdict joined))
        (finish (.recordChannelHealthSuccess check.channel.id) s.db s.db).2
        [.cleared k check.channel.id]
  | lost (joined : Bool) (hclearing : check.progress = .clearing joined) :
      Reacted s k check (.done (verdict joined)) s.db [.lost k]
  | alerted (hdone : check.progress = .done .UNVERIFIABLE) (stamp : Option ℤ) :
      Reacted s k check .alerted
        ((stamp.map fun now =>
          (recordValidationError check.channel.id "UNVERIFIABLE" now).apply s.db).getD s.db) []
  | recorded (halerted : check.progress = .alerted) (now : ℤ) :
      Reacted s k check .recorded (finish (failureOf check.channel.id now) s.db s.db).2
        (if (plan s.db (failureOf check.channel.id now)).writes.isEmpty then []
          else [.counted k check.channel.id now])

theorem reacted {e : CheckEvent} (h : s.react k check e = some s') :
    ∃ p db fresh, Reacted s k check p db fresh ∧
      s' = { s with db := db, checks := setProgress k p s.checks, facts := fresh ++ s.facts } := by
  cases e with
  | call => cases h
  | cached _ joined =>
    obtain ⟨hwaiting, hs'⟩ := Option.ite_none_right_eq_some.mp h
    cases hs'
    exact ⟨_, _, _, .cached hwaiting joined, rfl⟩
  | answer _ response =>
    obtain ⟨hwaiting, hs'⟩ := Option.ite_none_right_eq_some.mp h
    cases hs'
    exact ⟨_, _, _, .answered hwaiting response, rfl⟩
  | clear =>
    rw [World.react] at h
    split at h
    · rename_i joined hclearing
      cases h
      exact ⟨_, _, _, .cleared joined hclearing, rfl⟩
    · cases h
  | clearLost =>
    rw [World.react] at h
    split at h
    · rename_i joined hclearing
      cases h
      exact ⟨_, _, _, .lost joined hclearing, rfl⟩
    · cases h
  | alert _ stamp =>
    obtain ⟨⟨hdone, -⟩, hs'⟩ := Option.ite_none_right_eq_some.mp h
    cases hs'
    exact ⟨_, _, _, .alerted hdone stamp, rfl⟩
  | record _ now =>
    obtain ⟨halerted, hs'⟩ := Option.ite_none_right_eq_some.mp h
    cases hs'
    exact ⟨_, _, _, .recorded halerted now, rfl⟩

/-! ### Looking checks up -/

theorem progress_set {checks : List Check} {j : ℕ} {p : Progress} {c' : Check}
    (h : (setProgress k p checks)[j]? = some c') :
    ∃ c, checks[j]? = some c ∧ c'.channel = c.channel ∧
      (j = k ∧ c'.progress = p ∨ j ≠ k ∧ c' = c) := by
  rw [setProgress, List.getElem?_modify, Option.map_eq_map, Option.map_eq_some_iff] at h
  obtain ⟨c, hc, rfl⟩ := h
  refine ⟨c, hc, ?_⟩
  split_ifs with hjk
  · exact ⟨rfl, .inl ⟨hjk.symm, rfl⟩⟩
  · exact ⟨rfl, .inr ⟨fun heq => hjk heq.symm, rfl⟩⟩

theorem progress_kept {checks : List Check} {j : ℕ} {c : Check} (h : checks[j]? = some c) (k : ℕ)
    (p : Progress) : ∃ c', (setProgress k p checks)[j]? = some c' ∧ c'.channel = c.channel ∧
      (j = k ∧ c'.progress = p ∨ j ≠ k ∧ c' = c) := by
  have hset : (setProgress k p checks)[j]? =
      some (if k = j then { c with progress := p } else c) := by
    rw [setProgress, List.getElem?_modify, h, Option.map_eq_map, Option.map_some]
  obtain ⟨d, hd, hchannel, hprogress⟩ := progress_set hset
  exact ⟨_, hset, by rw [hchannel, Option.some.inj (hd.symm.trans h)],
    Option.some.inj (hd.symm.trans h) ▸ hprogress⟩

/-! ### The invariant -/

def countedCheck : Fact → Option ℕ
  | .counted k _ _ => some k
  | _ => none

/-- The success of a check has not reset its channel: nothing to reset, or not yet, or it failed. -/
def NotReset (facts : List Fact) (k : ℕ) (check : Check) : Prop :=
  check.channel.healthFailureCount = 0 ∨ (∃ joined, check.progress = .clearing joined) ∨
    .lost k ∈ facts

structure Watched (s : World) : Prop where
  keys : UniqueKeys s.db.configs
  accounted : Accounted s.db s.facts
  recorded : ∀ k id now, .counted k id now ∈ s.facts →
    ∃ check, s.checks[k]? = some check ∧ check.channel.id = id ∧ check.progress = .recorded
  once : (s.facts.filterMap countedCheck).Nodup
  permanent : ∀ k check, s.checks[k]? = some check → check.progress.isPermanent = true →
    ∃ err, .answered k check.channel.id (.error err) ∈ s.facts ∧
      classifyMemberCheckError err = .UNVERIFIABLE
  verified : ∀ k id status isMember,
    .answered k id (.member status isMember) ∈ sinceCleared id s.facts →
    ∃ check, s.checks[k]? = some check ∧ check.channel.id = id ∧ NotReset s.facts k check

theorem watched_start (h : s.Start) : Watched s where
  keys := h.keys
  accounted := fun row hrow _ => by
    obtain ⟨hcount, hfirst, hlast⟩ := h.healthy row hrow
    exact ⟨[], ⟨hcount.symm, hlast.symm, hfirst.symm, .nil⟩, List.nil_prefix⟩
  recorded := fun k id now hmem => by
    rw [h.facts] at hmem
    cases hmem
  once := by
    rw [h.facts]
    exact List.nodup_nil
  permanent := fun k check hcheck => by
    rw [h.checks] at hcheck
    cases hcheck
  verified := fun k id status isMember hmem => by
    rw [h.facts] at hmem
    cases hmem

theorem watched_call (h : Watched s) :
    Watched { s with
      calls := s.calls + 1
      checks := s.checks ++ (listActiveChannels s.db).map fun channel =>
        { call := s.calls, channel := channel, progress := .waiting } } := by
  have hkept : ∀ (new : List Check) {j : ℕ} {c : Check}, s.checks[j]? = some c →
      (s.checks ++ new)[j]? = some c := by
    intro new j c hc
    rw [List.getElem?_append_left (List.getElem?_eq_some_iff.mp hc).1, hc]
  refine ⟨h.keys, h.accounted, fun k id now hmem => ?_, h.once, fun k check hcheck hperm => ?_,
    fun k id status isMember hmem => ?_⟩
  · obtain ⟨check, hcheck, hrest⟩ := h.recorded k id now hmem
    exact ⟨check, hkept _ hcheck, hrest⟩
  · rw [List.getElem?_append] at hcheck
    split_ifs at hcheck
    · exact h.permanent k check hcheck hperm
    · obtain ⟨channel, -, rfl⟩ := List.mem_map.mp (List.mem_of_getElem? hcheck)
      cases hperm
  · obtain ⟨check, hcheck, hrest⟩ := h.verified k id status isMember hmem
    exact ⟨check, hkept _ hcheck, hrest⟩

variable {p : Progress} {fresh : List Fact}

theorem reacted_not_recorded (h : Reacted s k check p db fresh) : check.progress ≠ .recorded := by
  intro hrecorded
  cases h with
  | cached hwaiting | answered hwaiting => exact absurd (hwaiting.symm.trans hrecorded) nofun
  | cleared _ hclearing | lost _ hclearing => exact absurd (hclearing.symm.trans hrecorded) nofun
  | alerted hdone => exact absurd (hdone.symm.trans hrecorded) nofun
  | recorded halerted => exact absurd (halerted.symm.trans hrecorded) nofun

/-- Only a recording counts, and it counts its own check. -/
theorem reacted_counted (h : Reacted s k check p db fresh) {j : ℕ} {t : ℤ}
    (hmem : .counted j id t ∈ fresh) : j = k ∧ id = check.channel.id ∧ p = .recorded := by
  cases h with
  | cached | alerted => cases hmem
  | answered | cleared | lost => cases List.mem_singleton.mp hmem
  | recorded halerted now =>
    split_ifs at hmem
    · cases hmem
    · cases List.mem_singleton.mp hmem
      exact ⟨rfl, rfl, rfl⟩

theorem reacted_recorded (h : Watched s) (hcheck : s.checks[k]? = some check)
    (hreacted : Reacted s k check p db fresh) {j : ℕ} {t : ℤ}
    (hmem : .counted j id t ∈ fresh ++ s.facts) :
    ∃ c, (setProgress k p s.checks)[j]? = some c ∧ c.channel.id = id ∧ c.progress = .recorded := by
  rcases List.mem_append.mp hmem with hmem | hmem
  · obtain ⟨rfl, rfl, rfl⟩ := reacted_counted hreacted hmem
    obtain ⟨c, hc, hchannel, ⟨-, hp⟩ | ⟨hne, -⟩⟩ := progress_kept hcheck j .recorded
    · exact ⟨c, hc, by rw [hchannel], hp⟩
    · exact absurd rfl hne
  · obtain ⟨c, hc, hid, hrecorded⟩ := h.recorded j id t hmem
    obtain ⟨c', hc', hchannel, ⟨rfl, -⟩ | ⟨-, rfl⟩⟩ := progress_kept hc k p
    · cases Option.some.inj (hc.symm.trans hcheck)
      exact absurd hrecorded (reacted_not_recorded hreacted)
    · exact ⟨c', hc', hid, hrecorded⟩

theorem reacted_once (h : Watched s) (hcheck : s.checks[k]? = some check)
    (hreacted : Reacted s k check p db fresh) :
    ((fresh ++ s.facts).filterMap countedCheck).Nodup := by
  cases hreacted with
  | cached | alerted | answered | cleared | lost => exact h.once
  | recorded halerted now =>
    split_ifs
    · exact h.once
    · refine List.nodup_cons.mpr ⟨fun hmem => ?_, h.once⟩
      obtain ⟨f, hf, hk⟩ := List.mem_filterMap.mp hmem
      cases f with
      | counted j id t =>
        cases Option.some.inj hk
        obtain ⟨c, hc, -, hrecorded⟩ := h.recorded k id t hf
        cases Option.some.inj (hc.symm.trans hcheck)
        exact absurd (halerted.symm.trans hrecorded) nofun
      | answered | cleared | lost => cases hk

theorem verdict_not_permanent (joined : Bool) :
    (Progress.done (verdict joined)).isPermanent = false := by
  cases joined <;> rfl

theorem reacted_permanent (h : Watched s) (hcheck : s.checks[k]? = some check)
    (hreacted : Reacted s k check p db fresh) (hperm : p.isPermanent = true) :
    ∃ err, .answered k check.channel.id (.error err) ∈ fresh ++ s.facts ∧
      classifyMemberCheckError err = .UNVERIFIABLE := by
  have hold (hbefore : check.progress.isPermanent = true) :
      ∃ err, .answered k check.channel.id (.error err) ∈ fresh ++ s.facts ∧
        classifyMemberCheckError err = .UNVERIFIABLE := by
    obtain ⟨err, hmem, hclass⟩ := h.permanent k check hcheck hbefore
    exact ⟨err, List.mem_append_right _ hmem, hclass⟩
  cases hreacted with
  | cached _ joined | cleared joined | lost joined =>
    exact absurd (hperm.symm.trans (verdict_not_permanent joined)) nofun
  | answered _ response =>
    cases response with
    | error err => exact ⟨err, List.mem_append_left _ List.mem_cons_self, beq_iff_eq.mp hperm⟩
    | member status isMember =>
      rw [answerProgress] at hperm
      split_ifs at hperm
      · cases hperm
      · exact absurd (hperm.symm.trans (verdict_not_permanent _)) nofun
  | alerted hdone => exact hold (by rw [hdone]; rfl)
  | recorded halerted => exact hold (by rw [halerted]; rfl)

/-- A success stays without a reset, unless its own reset commits. -/
theorem notReset_kept {j : ℕ}
    (h : ∃ c, s.checks[j]? = some c ∧ c.channel.id = id ∧ NotReset s.facts j c)
    (hcheck : s.checks[k]? = some check)
    (hevent : (∀ joined, check.progress ≠ .clearing joined) ∨ .lost k ∈ fresh ∨
      check.channel.id ≠ id) :
    ∃ c, (setProgress k p s.checks)[j]? = some c ∧ c.channel.id = id ∧
      NotReset (fresh ++ s.facts) j c := by
  obtain ⟨c, hc, hid, hreset⟩ := h
  obtain ⟨c', hc', hchannel, ⟨rfl, -⟩ | ⟨-, rfl⟩⟩ := progress_kept hc k p
  · cases Option.some.inj (hc.symm.trans hcheck)
    refine ⟨c', hc', by rw [hchannel, hid], ?_⟩
    rw [NotReset, hchannel]
    rcases hreset with hzero | ⟨joined, hclearing⟩ | hlost
    · exact .inl hzero
    · rcases hevent with hnot | hlost | hne
      · exact absurd hclearing (hnot joined)
      · exact .inr (.inr (List.mem_append_left _ hlost))
      · exact absurd hid hne
    · exact .inr (.inr (List.mem_append_right _ hlost))
  · exact ⟨c', hc', hid, hreset.imp_right (Or.imp_right (List.mem_append_right _))⟩

theorem reacted_verified (h : Watched s) (hcheck : s.checks[k]? = some check)
    (hreacted : Reacted s k check p db fresh) {j : ℕ} {status : String} {isMember : Option Bool}
    (hmem : .answered j id (.member status isMember) ∈ sinceCleared id (fresh ++ s.facts)) :
    ∃ c, (setProgress k p s.checks)[j]? = some c ∧ c.channel.id = id ∧
      NotReset (fresh ++ s.facts) j c := by
  cases hreacted with
  | cached hwaiting =>
    exact notReset_kept (h.verified j id status isMember hmem) hcheck
      (.inl (by rw [hwaiting]; nofun))
  | alerted hdone =>
    exact notReset_kept (h.verified j id status isMember hmem) hcheck (.inl (by rw [hdone]; nofun))
  | answered hwaiting response =>
    rw [List.singleton_append, sinceCleared_cons rfl, List.mem_cons] at hmem
    rcases hmem with hnew | hmem
    · cases hnew
      obtain ⟨c, hc, hchannel, ⟨-, hp⟩ | ⟨hne, -⟩⟩ := progress_kept hcheck k
        (answerProgress check.channel (.member status isMember))
      · refine ⟨c, hc, by rw [hchannel], ?_⟩
        rw [NotReset, hchannel, hp, answerProgress]
        split_ifs with hcount
        · exact .inr (.inl ⟨_, rfl⟩)
        · exact .inl (Nat.eq_zero_of_not_pos hcount)
      · exact absurd rfl hne
    · exact notReset_kept (h.verified j id status isMember hmem) hcheck
        (.inl (by rw [hwaiting]; nofun))
  | cleared joined hclearing =>
    by_cases hid : check.channel.id = id
    · subst hid
      rw [List.singleton_append, sinceCleared_cleared] at hmem
      cases hmem
    · have hother : clearedFor id (.cleared k check.channel.id) = false := beq_false_of_ne hid
      rw [List.singleton_append, sinceCleared_cons hother, List.mem_cons] at hmem
      rcases hmem with hnew | hmem
      · cases hnew
      · exact notReset_kept (h.verified j id status isMember hmem) hcheck (.inr (.inr hid))
  | lost joined hclearing =>
    rw [List.singleton_append, sinceCleared_cons rfl, List.mem_cons] at hmem
    rcases hmem with hnew | hmem
    · cases hnew
    · exact notReset_kept (h.verified j id status isMember hmem) hcheck
        (.inr (.inl List.mem_cons_self))
  | recorded halerted now =>
    have hnot : ∀ joined, check.progress ≠ .clearing joined := by
      rw [halerted]
      nofun
    split_ifs at hmem ⊢
    · exact notReset_kept (h.verified j id status isMember hmem) hcheck (.inl hnot)
    · rw [List.singleton_append, sinceCleared_cons rfl, List.mem_cons] at hmem
      rcases hmem with hnew | hmem
      · cases hnew
      · exact notReset_kept (h.verified j id status isMember hmem) hcheck (.inl hnot)

theorem reacted_db (h : Watched s) (hreacted : Reacted s k check p db fresh) :
    UniqueKeys db.configs ∧ Accounted db (fresh ++ s.facts) := by
  have hfacts {facts : List Fact} (hsame : ∀ id, countedSince id facts = countedSince id s.facts) :
      Accounted s.db facts := fun row hrow hactive => hsame row.id ▸ h.accounted row hrow hactive
  cases hreacted with
  | cached => exact ⟨h.keys, h.accounted⟩
  | answered => exact ⟨h.keys, hfacts fun _ => countedSince_cons rfl rfl⟩
  | cleared joined =>
    refine ⟨uniqueKeys_finish h.keys _, ?_⟩
    rw [finish_success h.keys]
    exact accounted_success h.accounted k check.channel.id
  | lost => exact ⟨h.keys, hfacts fun _ => countedSince_cons rfl rfl⟩
  | alerted hdone stamp =>
    cases stamp with
    | none => exact ⟨h.keys, h.accounted⟩
    | some t =>
      refine ⟨?_, accounted_stamp h.accounted check.channel.id "UNVERIFIABLE" t⟩
      rw [Option.map_some, Option.getD_some, configs_apply]
      change UniqueKeys (edit check.channel.id (fun c => c) s.db.configs)
      rw [edit_same]
      exact h.keys
  | recorded halerted t =>
    refine ⟨uniqueKeys_finish h.keys _, ?_⟩
    rw [finish_failure h.keys]
    exact accounted_failure h.accounted k check.channel.id t

theorem watched_step {e : CheckEvent} (h : Watched s) (hstep : s.step e = some s') :
    Watched s' := by
  rw [World.step] at hstep
  split at hstep
  · cases hstep
    exact watched_call h
  · rename_i k _
    obtain ⟨check, hcheck, hreact⟩ := Option.bind_eq_some_iff.mp hstep
    obtain ⟨p, db, fresh, hreacted, rfl⟩ := reacted hreact
    obtain ⟨hkeys, haccounted⟩ := reacted_db h hreacted
    refine ⟨hkeys, haccounted, fun j id t hmem => reacted_recorded h hcheck hreacted hmem,
      reacted_once h hcheck hreacted, fun j c' hc' hperm => ?_,
      fun j id status isMember hmem => reacted_verified h hcheck hreacted hmem⟩
    obtain ⟨c, hc, hchannel, ⟨rfl, hp⟩ | ⟨-, rfl⟩⟩ := progress_set hc'
    · cases Option.some.inj (hc.symm.trans hcheck)
      rw [hchannel]
      exact reacted_permanent h hcheck hreacted (hp ▸ hperm)
    · obtain ⟨err, hmem, hclass⟩ := h.permanent j c' hc hperm
      exact ⟨err, List.mem_append_right _ hmem, hclass⟩

theorem watched_of_reaches {s₀ : World} (h₀ : s₀.Start) (h : s₀.Reaches s) : Watched s := by
  induction h with
  | start => exact watched_start h₀
  | step _ hstep ih => exact watched_step ih hstep

/-! ### Retirement -/

/-- Failures, newest first, that retire a channel: numerous, apart, without a long gap, lasting,
    and each an unverifiable answer to a check of its own. -/
structure Sustained (s : World) (id : String) (failures : List (ℕ × ℤ)) : Prop where
  numerous : 5 ≤ failures.length
  apart : failures.Pairwise fun newer older => 5000 ≤ newer.2 - older.2
  gapless : failures.IsChain fun newer older => newer.2 - older.2 ≤ 60 * 60000
  lasting : ∀ newest ∈ failures.head?, ∀ oldest ∈ failures.getLast?,
    10 * 60000 ≤ newest.2 - oldest.2
  distinct : (failures.map Prod.fst).Nodup
  permanent : ∀ failure ∈ failures, ∃ err, .answered failure.1 id (.error err) ∈ s.facts ∧
    classifyMemberCheckError err = .UNVERIFIABLE

theorem apart_of_chain {failures : List (ℕ × ℤ)}
    (h : failures.IsChain fun newer older => 5000 ≤ newer.2 - older.2) :
    failures.Pairwise fun newer older => 5000 ≤ newer.2 - older.2 := by
  let Apart : ℕ × ℤ → ℕ × ℤ → Prop := fun newer older => 5000 ≤ newer.2 - older.2
  have htrans : Trans Apart Apart Apart := ⟨fun {a b c} hab hbc => by
    have hab : 5000 ≤ a.2 - b.2 := hab
    have hbc : 5000 ≤ b.2 - c.2 := hbc
    change 5000 ≤ a.2 - c.2
    omega⟩
  exact List.isChain_iff_pairwise.mp h

theorem counted_of_since {facts : List Fact} {failure : ℕ × ℤ}
    (h : failure ∈ countedSince id facts) : .counted failure.1 id failure.2 ∈ facts := by
  obtain ⟨f, hf, hfailure⟩ := List.mem_filterMap.mp h
  have hmem : f ∈ facts := (List.takeWhile_prefix _).subset hf
  cases f with
  | counted j other t =>
    obtain ⟨rfl, heq⟩ := Option.ite_none_right_eq_some.mp hfailure
    cases heq
    exact hmem
  | answered | cleared | lost => cases hfailure

theorem checks_sublist (id : String) (facts : List Fact) :
    ((countedSince id facts).map Prod.fst).Sublist (facts.filterMap countedCheck) := by
  have hall : ∀ l : List Fact, ((l.filterMap (countedFor id)).map Prod.fst).Sublist
      (l.filterMap countedCheck) := by
    intro l
    induction l with
    | nil => exact .slnil
    | cons f l ih =>
      cases f with
      | counted j other t =>
        rw [List.filterMap_cons, List.filterMap_cons, countedFor, countedCheck]
        split_ifs
        · exact ih.cons_cons j
        · exact ih.cons j
      | answered | cleared | lost => exact ih
  exact (hall _).trans ((List.takeWhile_prefix _).sublist.filterMap _)

/-- The failure that retires a channel is the newest of a sustained series. -/
theorem retired_sustained (h : Watched s) (hcheck : s.checks[k]? = some check)
    (halerted : check.progress = .alerted) {off : Bool}
    (hretired : (finish (failureOf check.channel.id now) s.db s.db).1 = .retired off) :
    ∃ earlier, earlier <+: countedSince check.channel.id s.facts ∧
      Sustained s check.channel.id ((k, now) :: earlier) := by
  rw [finish_failure h.keys] at hretired
  have hfailed : Failed s.db check.channel.id "UNVERIFIABLE" now
      (plan s.db (failureOf check.channel.id now)) := failed s.db _ _ now
  generalize plan s.db (failureOf check.channel.id now) = p at hfailed hretired
  cases hfailed with
  | uncounted o ho => exact absurd hretired (ho off)
  | counted => cases hretired
  | retired row hrow hid hactive hdebounced hsustained =>
    obtain ⟨failures, hwindow, hnewest⟩ := h.accounted row hrow hactive
    have hnext := window_counted hwindow hdebounced k "UNVERIFIABLE" none
    rw [isRetired, Bool.and_eq_true, decide_eq_true_eq, decide_eq_true_eq] at hsustained
    generalize hearlier : (if isStaleWindow row.healthFailureLastAt now then [] else failures) =
      earlier at hnext
    have hnewer : earlier <+: countedSince check.channel.id s.facts := by
      rw [← hearlier, ← hid]
      split_ifs
      · exact List.nil_prefix
      · exact hnewest
    have hcounted : ∀ failure ∈ earlier, .counted failure.1 check.channel.id failure.2 ∈ s.facts :=
      fun failure hmem => counted_of_since (hnewer.subset hmem)
    refine ⟨earlier, hnewer, ?_, ?_, ?_, ?_, ?_, ?_⟩
    · rw [hnext.count]
      exact hsustained.1
    · exact apart_of_chain (hnext.spaced.imp fun _ _ hgap => hgap.1)
    · exact hnext.spaced.imp fun _ _ hgap => hgap.2
    · intro newest hn oldest ho
      cases hn
      have hfirst := hnext.first
      rw [Option.mem_def.mp ho, Option.map_some] at hfirst
      have hat : oldest.2 = nextFirstAt row.toChannelHealth now := Option.some.inj hfirst
      rw [hat]
      exact hsustained.2
    · refine List.nodup_cons.mpr ⟨fun hmem => ?_, ?_⟩
      · obtain ⟨failure, hfailure, rfl⟩ := List.mem_map.mp hmem
        obtain ⟨c, hc, -, hrecorded⟩ := h.recorded _ _ _ (hcounted failure hfailure)
        cases Option.some.inj (hc.symm.trans hcheck)
        exact absurd (halerted.symm.trans hrecorded) nofun
      · exact h.once.sublist ((hnewer.sublist.map _).trans (checks_sublist _ _))
    · intro failure hmem
      rcases List.mem_cons.mp hmem with rfl | hmem
      · exact h.permanent k check hcheck (by rw [halerted]; rfl)
      · obtain ⟨c, hc, hcid, hrecorded⟩ := h.recorded _ _ _ (hcounted failure hmem)
        rw [← hcid]
        exact h.permanent failure.1 c hc (by rw [hrecorded]; rfl)

/-- What holds of a retirement: the failures behind it were sustained and counted since the last
    committed reset, and no success since then had a reset of its own committed. -/
structure RetiredAfter (s : World) (id : String) (k : ℕ) (now : ℤ) : Prop where
  sustained : ∃ earlier, earlier <+: countedSince id s.facts ∧
    Sustained s id ((k, now) :: earlier)
  successes : ∀ j status isMember, .answered j id (.member status isMember) ∈
    sinceCleared id s.facts → ∃ check, s.checks[j]? = some check ∧ NotReset s.facts j check

/-- From healthy channels, however the calls interleave: a channel is retired only after
    sustained failures that no committed reset interrupts, and a transient answer changes no
    table, nor does its check ever do anything again. -/
theorem retirement {s₀ : World} (h₀ : s₀.Start) (h : s₀.Reaches s) :
    (∀ k check now off, s.checks[k]? = some check → check.progress = .alerted →
      (finish (failureOf check.channel.id now) s.db s.db).1 = .retired off →
      RetiredAfter s check.channel.id k now) ∧
    (∀ k err s', classifyMemberCheckError err = .TEMP →
      s.step (.answer k (.error err)) = some s' → s'.db = s.db ∧
        ∃ check, s'.checks[k]? = some check ∧ check.progress = .done .TEMP) ∧
    ∀ k check e, s.checks[k]? = some check → check.progress = .done .TEMP →
      e.check = some k → s.step e = none := by
  have hwatched := watched_of_reaches h₀ h
  refine ⟨fun k check now off hcheck halerted hretired => ⟨?_, ?_⟩,
    fun k err s' htemp hstep => ?_, fun k check e hcheck hdone he => ?_⟩
  · exact retired_sustained hwatched hcheck halerted hretired
  · intro j status isMember hmem
    obtain ⟨c, hc, -, hreset⟩ := hwatched.verified j _ status isMember hmem
    exact ⟨c, hc, hreset⟩
  · obtain ⟨check, hcheck, hreact⟩ := Option.bind_eq_some_iff.mp hstep
    obtain ⟨-, hs'⟩ := Option.ite_none_right_eq_some.mp hreact
    cases hs'
    refine ⟨rfl, ?_⟩
    obtain ⟨c, hc, -, ⟨-, hp⟩ | ⟨hne, -⟩⟩ := progress_kept hcheck k
      (answerProgress check.channel (.error err))
    · exact ⟨c, hc, by rw [hp, answerProgress, htemp]⟩
    · exact absurd rfl hne
  · rw [World.step, he]
    dsimp only
    rw [hcheck, Option.bind_some]
    by_contra hsome
    obtain ⟨s', hs'⟩ := Option.ne_none_iff_exists'.mp hsome
    obtain ⟨p, db, fresh, hreacted, -⟩ := reacted hs'
    cases hreacted with
    | cached hwaiting | answered hwaiting => exact absurd (hdone.symm.trans hwaiting) nofun
    | cleared _ hclearing | lost _ hclearing => exact absurd (hdone.symm.trans hclearing) nofun
    | alerted hunverifiable => exact absurd (hdone.symm.trans hunverifiable) nofun
    | recorded halerted => exact absurd (hdone.symm.trans halerted) nofun

/-! ### A success that resets nothing -/

def forbidden : ApiError where
  error_code := some 403
  description := "Forbidden: bot is not a member of the channel chat"

/-- One active channel without failures. -/
def oneChannel : World where
  db :=
    { channels := [
        { id := "c1", chatId := -1001, title := "news", joinUrl := "https://t.me/news"
          normalizedLink := "news", isPrivate := false, publicUsername := some "news"
          isActive := true, sortOrder := 0, createdAt := 0, createdByAdminId := none
          healthFailureCount := 0, healthFailureFirstAt := none, healthFailureLastAt := none
          unhealthyAt := none, lastValidatedAt := none, lastValidationErrorCode := none }]
      setting := none
      opsEvents := [] }
  calls := 0
  checks := []
  facts := []

/-- A call whose only check is answered that the bot has no access, up to its recording. -/
def unverifiable (k : ℕ) : List CheckEvent :=
  [.call, .answer k (.error forbidden), .alert k none]

/-- Check 0 has its snapshot from before the first failure, and its success after the fourth. -/
def staleSuccess : List CheckEvent :=
  [[.call], unverifiable 1, [.record 1 0], unverifiable 2, [.record 2 180000],
    unverifiable 3, [.record 3 360000], unverifiable 4, [.record 4 540000],
    [.answer 0 (.member "member" none)], unverifiable 5].flatten

/-- A permanent failure on the channel. -/
def isUnverifiable : Fact → Bool
  | .answered _ _ (.error err) => classifyMemberCheckError err == .UNVERIFIABLE
  | _ => false

def isSuccess : Fact → Bool
  | .answered _ _ (.member _ _) => true
  | _ => false

/-- On this run the fifth failure retires the channel. -/
theorem retirement_five : ∃ s, oneChannel.Reaches s ∧ RetiredAfter s "c1" 5 720000 := by
  have hstart : oneChannel.Start := ⟨by decide, by decide, rfl, rfl⟩
  have hrun : ((oneChannel.exec staleSuccess).bind fun s => (s.checks[5]?).map fun check =>
      (check.channel.id, check.progress, (finish (failureOf "c1" 720000) s.db s.db).1)) =
      some ("c1", .alerted, .retired false) := by decide +kernel
  obtain ⟨s, hs, hfacts⟩ := Option.bind_eq_some_iff.mp hrun
  obtain ⟨check, hcheck, heq⟩ := Option.map_eq_some_iff.mp hfacts
  have hreaches := World.reaches_of_exec .start hs
  obtain ⟨hid, hrest⟩ := Prod.mk.inj heq
  obtain ⟨halerted, hretired⟩ := Prod.mk.inj hrest
  refine ⟨s, hreaches, ?_⟩
  have hafter := (retirement hstart hreaches).1 5 check 720000 false hcheck halerted
    (by rw [hid]; exact hretired)
  rwa [hid] at hafter

/-- Every stretch of the history with five permanent failures has a success within it, and yet
    the next recording retires the channel. -/
theorem stale_success_resets_nothing : ∃ s, oneChannel.Start ∧ oneChannel.Reaches s ∧
    (finish (failureOf "c1" 720000) s.db s.db).1 = .retired false ∧
    ∀ newer window older, s.facts = newer ++ window ++ older →
      5 ≤ window.countP isUnverifiable → ∃ fact ∈ window, isSuccess fact = true := by
  have hrun : ((oneChannel.exec staleSuccess).map fun s =>
      ((finish (failureOf "c1" 720000) s.db s.db).1, s.facts.map isUnverifiable,
        s.facts.map isSuccess)) = some (.retired false,
        [true, false, false, true, false, true, false, true, false, true],
        [false, true, false, false, false, false, false, false, false, false]) := by
    decide +kernel
  obtain ⟨s, hs, hfacts⟩ := Option.map_eq_some_iff.mp hrun
  obtain ⟨hretired, hrest⟩ := Prod.mk.inj hfacts
  obtain ⟨hfailures, hsuccesses⟩ := Prod.mk.inj hrest
  refine ⟨s, ⟨by decide, by decide, rfl, rfl⟩, World.reaches_of_exec .start hs, hretired, ?_⟩
  intro newer window older hsplit hfive
  have hlength : newer.length + window.length + older.length = 10 := by
    rw [← List.length_append, ← List.length_append, ← hsplit, ← List.length_map isUnverifiable,
      hfailures]
    rfl
  have hwindow : window = (s.facts.drop newer.length).take window.length := by
    rw [hsplit, List.append_assoc, List.drop_left, List.take_left]
  have hstretch : ∀ n ≤ 10, ∀ w ≤ 10,
      5 ≤ (([true, false, false, true, false, true, false, true, false, true].drop n).take w).countP
        id → true ∈ ([false, true, false, false, false, false, false, false, false,
          false].drop n).take w := by decide +kernel
  have hsuccess : true ∈ window.map isSuccess := by
    rw [hwindow, List.map_take, List.map_drop, hsuccesses]
    refine hstretch _ (by omega) _ (by omega) ?_
    rw [← hfailures, ← List.map_drop, ← List.map_take, ← hwindow, List.countP_map]
    exact hfive
  exact List.mem_map.mp hsuccess

end ZedBot.ForceJoin
