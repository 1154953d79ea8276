import Mathlib.Algebra.BigOperators.Group.List.Basic
import Mathlib.Tactic.Tauto
import ZedBot.Panels.XuiReads

/-! When the two reads of a 3X-UI inventory agree on a service.

    The bulk read sees the last client with the username as its email. The single read takes limit,
    expiry and token from the first such client, and the traffic and the switch from every match. -/

namespace ZedBot.Panels

/-- The client's email is the username. -/
def isExact (username : String) (c : XuiClient) : Bool := c.email == some username

/-- The client's email is neither the username nor the username with an inbound id. -/
def Unrelated (username : String) (c : XuiClient) : Prop :=
  c.email ≠ some username ∧ ∀ inboundId : ℕ, c.email ≠ some s!"{username}-{inboundId}"

/-- The bulk read yields an account exactly when the single read is ok, with the same figures. -/
def Agree (single : GetServiceAccountResult) : Option GetServiceAccountResult → Prop
  | none => single.ok = false
  | some bulk => single.ok = true ∧ bulk.totalBytes = single.totalBytes ∧
      bulk.usedBytes = single.usedBytes ∧ bulk.remainingBytes = single.remainingBytes ∧
      bulk.expiresAt = single.expiresAt ∧ bulk.status = single.status ∧
      bulk.subscriptionToken = single.subscriptionToken

/-- The reads agree on the inventory `a ++ b`, and an unrelated client between `a` and `b` changes
    neither of them. -/
structure ReadsAgree (credentials : XuiCredentials) (username : String) (a b : List XuiClient)
    (c : XuiClient) (calls : XuiReadCalls) (now : ℤ) : Prop where
  agree : Agree (getServiceAccount credentials username (a ++ b) calls now)
    (bulkMatch credentials username (a ++ b) calls now)
  stable : Unrelated username c →
    getServiceAccount credentials username (a ++ c :: b) calls now =
        getServiceAccount credentials username (a ++ b) calls now ∧
      bulkMatch credentials username (a ++ c :: b) calls now =
        bulkMatch credentials username (a ++ b) calls now

/-- The last client with the username as its email stands for all matches: the first such client
    shows its limit, expiry and token, and no other match adds traffic or is switched off. -/
structure StandsForAll (username : String) (clients : List XuiClient) (f l : XuiClient) : Prop where
  first : clients.find? (isExact username) = some f
  last : clients.reverse.find? (isExact username) = some l
  limit : f.limit = l.limit
  expiry : f.expiry = l.expiry
  token : f.token = l.token
  traffic : ∀ c ∈ clients.filter (isOurs username), c.traffic.isSome → l.traffic.isSome
  used : ((clients.filter (isOurs username)).map (·.used)).sum = l.used
  disabled : ∀ c ∈ clients.filter (isOurs username), c.isDisabled → l.isDisabled

/-- The login and the list are both answered. -/
def isReadable (credentials : XuiCredentials) (calls : XuiReadCalls) : Bool :=
  (authenticate credentials calls.login).toBool && decide (calls.listClients = .answered)

/-! ### The map of the bulk read -/

theorem accountsOf_append (a b : List XuiClient) (now : ℤ) :
    accountsOf (a ++ b) now = accountsOf a now ++ accountsOf b now :=
  List.filterMap_append

theorem byUsername_append (xs : List GetServiceAccountResult) (x : GetServiceAccountResult)
    {name : String} (hx : x.username = some name) (hname : name ≠ "") (key : String) :
    byUsername (xs ++ [x]) key = if key = name then some x else byUsername xs key := by
  simp only [byUsername, List.foldl_append, List.foldl_cons, List.foldl_nil, hx]

/-- The map holds the last client of each username that is not empty. -/
theorem byUsername_accountsOf (clients : List XuiClient) (now : ℤ) (username : String) :
    byUsername (accountsOf clients now) username =
      if username = "" then none
      else (clients.reverse.find? (isExact username)).map fun c =>
        normalizeClientAccount username c [] now := by
  induction clients using List.reverseRecOn with
  | nil => simp [accountsOf, byUsername]
  | append_singleton clients c ih =>
    rw [accountsOf_append, List.reverse_append, List.reverse_singleton, List.singleton_append,
      List.find?_cons]
    by_cases hempty : c.email = none ∨ c.email = some ""
    · have hnone : accountsOf [c] now = [] := by
        rcases hempty with h | h <;> simp [accountsOf, h]
      rw [hnone, List.append_nil, ih]
      split
      · rfl
      · next hname =>
        have hother : isExact username c = false := by
          rcases hempty with h | h
          · simp [isExact, h]
          · simpa [isExact, h] using Ne.symm hname
        rw [hother]
    · obtain ⟨email, hemail, hne⟩ : ∃ email, c.email = some email ∧ email ≠ "" := by
        cases h : c.email with
        | none => exact absurd (.inl h) hempty
        | some email => exact ⟨email, rfl, fun he => hempty (.inr (by rw [h, he]))⟩
      have hone : accountsOf [c] now = [normalizeClientAccount email c [] now] := by
        simp [accountsOf, hemail]
      rw [hone, byUsername_append _ _ rfl hne, ih]
      by_cases hsame : username = email
      · subst hsame
        simp [hne, isExact, hemail]
      · have hother : isExact username c = false := by
          simpa [isExact, hemail] using Ne.symm hsame
        simp [hsame, hother]

/-! ### The matches of the single read -/

theorem isOurs_of_isExact {username : String} {c : XuiClient} (h : isExact username c = true) :
    isOurs username c = true := by
  have hemail : c.email = some username := by simpa [isExact] using h
  simp [isOurs, hemail]

theorem find?_ours (username : String) (clients : List XuiClient) :
    (clients.filter (isOurs username)).find? (isExact username) =
      clients.find? (isExact username) := by
  rw [List.find?_filter]
  congr 1
  funext c
  cases h : isExact username c with
  | false => simp
  | true => simp [isOurs_of_isExact h]

theorem find?_isSome_reverse (username : String) (clients : List XuiClient) :
    (clients.reverse.find? (isExact username)).isSome =
      (clients.find? (isExact username)).isSome := by
  rw [Bool.eq_iff_iff, List.find?_isSome, List.find?_isSome]
  simp

theorem used_nonneg (c : XuiClient) : 0 ≤ c.used := by
  unfold XuiClient.used
  cases c.traffic with
  | none => exact le_refl 0
  | some t => exact add_nonneg (le_max_left _ _) (le_max_left _ _)

theorem used_of_no_traffic {c : XuiClient} (h : ¬ c.traffic.isSome) : c.used = 0 := by
  unfold XuiClient.used
  cases htraffic : c.traffic with
  | none => rfl
  | some t => simp [htraffic] at h

theorem sum_used_of_no_traffic {cs : List XuiClient} (h : ∀ c ∈ cs, ¬ c.traffic.isSome) :
    (cs.map (·.used)).sum = 0 := by
  refine List.sum_eq_zero fun x hx => ?_
  obtain ⟨c, hc, rfl⟩ := List.mem_map.mp hx
  exact used_of_no_traffic (h c hc)

/-- With the other figures the same, the status shows exactly whether a match is switched off. -/
theorem statusOf_inj {d d' : Bool} (e : Option (Option JsDate)) (t : Option (Option ℤ))
    (u : Option ℤ) (now : ℤ) : statusOf d e t u now = statusOf d' e t u now ↔ d = d' := by
  have hne : statusOf false e t u now ≠ .disabled := by
    unfold statusOf
    simp only [Bool.false_eq_true, if_false]
    split
    · nofun
    · split <;> nofun
  have htrue : statusOf true e t u now = .disabled := rfl
  cases d <;> cases d'
  · simp
  · simpa [htrue] using hne
  · simpa [htrue] using hne.symm
  · simp

/-- The traffic of all matches is the traffic of one of them exactly if the others add none. -/
theorem usedBytes_eq_iff {cs : List XuiClient} {l : XuiClient} (hl : l ∈ cs) :
    ((if [l].any (·.traffic.isSome) then some ([l].map (·.used)).sum else none) =
        if cs.any (·.traffic.isSome) then some (cs.map (·.used)).sum else none) ↔
      (∀ c ∈ cs, c.traffic.isSome → l.traffic.isSome) ∧ (cs.map (·.used)).sum = l.used := by
  have hsingle : [l].any (·.traffic.isSome) = l.traffic.isSome := by simp
  have hsum : ([l].map (·.used)).sum = l.used := by simp
  rw [hsingle, hsum]
  by_cases hany : ∃ c ∈ cs, c.traffic.isSome = true
  · rw [if_pos (List.any_eq_true.mpr hany)]
    obtain ⟨c, hc, hsome⟩ := hany
    by_cases hl' : l.traffic.isSome = true
    · rw [if_pos hl', Option.some_inj]
      exact ⟨fun h => ⟨fun _ _ _ => hl', h.symm⟩, fun h => h.2.symm⟩
    · rw [if_neg hl']
      exact ⟨fun h => (nomatch h), fun h => absurd (h.1 c hc hsome) hl'⟩
  · have hnone : ∀ c ∈ cs, ¬ c.traffic.isSome = true := fun c hc hsome => hany ⟨c, hc, hsome⟩
    rw [if_neg fun h => hany (List.any_eq_true.mp h), if_neg (hnone l hl)]
    refine ⟨fun _ => ⟨fun c hc hsome => absurd hsome (hnone c hc), ?_⟩, fun _ => rfl⟩
    rw [sum_used_of_no_traffic hnone, used_of_no_traffic (hnone l hl)]

theorem any_disabled_iff {cs : List XuiClient} {l : XuiClient} (hl : l ∈ cs) :
    [l].any (·.isDisabled) = cs.any (·.isDisabled) ↔ ∀ c ∈ cs, c.isDisabled → l.isDisabled := by
  rw [Bool.eq_iff_iff]
  simp only [List.any_cons, List.any_nil, Bool.or_false, List.any_eq_true]
  exact ⟨fun h c hc hd => h.mpr ⟨c, hc, hd⟩,
    fun h => ⟨fun hd => ⟨l, hl, hd⟩, fun ⟨c, hc, hd⟩ => h c hc hd⟩⟩

/-! ### Agreement -/

/-- The account found in bulk against the account that the single read makes of the same matches. -/
theorem agree_normalized {username : String} {first f l : XuiClient} {rest : List XuiClient}
    {now : ℤ} (hf : (first :: rest).find? (isExact username) = some f) (hl : l ∈ first :: rest)
    (hexact : isExact username l = true) (links : Option (List String)) :
    Agree { normalizeClientAccount username first rest now with configLinks := links }
        (some (normalizeClientAccount username l [] now)) ↔
      f.limit = l.limit ∧ f.expiry = l.expiry ∧ f.token = l.token ∧
        (∀ c ∈ first :: rest, c.traffic.isSome → l.traffic.isSome) ∧
        ((first :: rest).map (·.used)).sum = l.used ∧
        ∀ c ∈ first :: rest, c.isDisabled → l.isDisabled := by
  have hprimary : ((first :: rest).find? fun c => c.email == some username).getD first = f := by
    change ((first :: rest).find? (isExact username)).getD first = f
    rw [hf]
    rfl
  have halone : ([l].find? fun c => c.email == some username).getD l = l := by
    simp [show (l.email == some username) = true from hexact]
  have hused := usedBytes_eq_iff hl
  have hdisabled := any_disabled_iff hl
  simp only [Agree, normalizeClientAccount, hprimary, halone]
  constructor
  · rintro ⟨-, hlimit, hbytes, -, hexpiry, hstatus, htoken⟩
    rw [Option.some_inj, hlimit, hbytes, hexpiry, statusOf_inj] at hstatus
    obtain ⟨htraffic, hsum⟩ := hused.mp hbytes
    exact ⟨hlimit.symm, hexpiry.symm, htoken.symm, htraffic, hsum, hdisabled.mp hstatus⟩
  · rintro ⟨hlimit, hexpiry, htoken, htraffic, hsum, hoff⟩
    have hbytes := hused.mpr ⟨htraffic, hsum⟩
    refine ⟨trivial, hlimit.symm, hbytes, by rw [hbytes, hlimit], hexpiry.symm, ?_, htoken.symm⟩
    rw [hbytes, hdisabled.mpr hoff, hlimit, hexpiry]

/-- The reads of an inventory that was read agree exactly if no client matches, or one client stands
    for all that do. -/
theorem agree_iff (username : String) (clients : List XuiClient) (calls : XuiReadCalls) (now : ℤ) :
    Agree (accountOf username clients calls now)
        (byUsername (accountsOf clients now) username) ↔
      clients.filter (isOurs username) = [] ∨
        username ≠ "" ∧ ∃ f l, StandsForAll username clients f l := by
  have hours := find?_ours username clients
  have hboth := find?_isSome_reverse username clients
  rw [byUsername_accountsOf]
  cases hms : clients.filter (isOurs username) with
  | nil =>
    rw [hms, List.find?_nil] at hours
    have hnone : clients.reverse.find? (isExact username) = none := by
      rw [← hours] at hboth
      simpa using hboth
    simp [accountOf, hms, hnone, Agree, readFailed]
  | cons first rest =>
    have hok : (accountOf username clients calls now).ok = true := by
      simp only [accountOf, hms]
      split <;> rfl
    rw [hms] at hours
    simp only [reduceCtorEq, false_or]
    by_cases hempty : username = ""
    · rw [if_pos hempty]
      refine ⟨fun h => ?_, fun h => absurd hempty h.1⟩
      rw [Agree, hok] at h
      cases h
    rw [if_neg hempty]
    cases hlast : clients.reverse.find? (isExact username) with
    | none =>
      refine ⟨fun h => by simp [Agree, hok] at h, fun ⟨_, f, l, h⟩ => ?_⟩
      rw [h.last] at hlast
      cases hlast
    | some l =>
      obtain ⟨f, hfirst⟩ : ∃ f, clients.find? (isExact username) = some f := by
        rw [hlast] at hboth
        exact Option.isSome_iff_exists.mp hboth.symm
      have hexact := List.find?_some hlast
      have hmem : l ∈ first :: rest := by
        rw [← hms, List.mem_filter]
        exact ⟨List.mem_reverse.mp (List.mem_of_find?_eq_some hlast), isOurs_of_isExact hexact⟩
      have hany : (first :: rest).any (fun c => c.email == some username) = true :=
        List.any_eq_true.mpr ⟨l, hmem, hexact⟩
      have hshown := @agree_normalized _ _ _ _ _ now (hours.trans hfirst) hmem hexact
        (nonemptyLinks calls.links)
      simp only [accountOf, hms, if_pos hany, Option.map_some]
      rw [hshown]
      constructor
      · rintro ⟨hlimit, hexpiry, htoken, htraffic, hsum, hoff⟩
        rw [← hms] at htraffic hsum hoff
        exact ⟨hempty, f, l, hfirst, hlast, hlimit, hexpiry, htoken, htraffic, hsum, hoff⟩
      · rintro ⟨-, f', l', h⟩
        obtain rfl : f' = f := Option.some_inj.mp (h.first.symm.trans hfirst)
        obtain rfl : l' = l := Option.some_inj.mp (h.last.symm.trans hlast)
        have htraffic := h.traffic
        have hsum := h.used
        have hoff := h.disabled
        rw [hms] at htraffic hsum hoff
        exact ⟨h.limit, h.expiry, h.token, htraffic, hsum, hoff⟩

/-! ### Unrelated clients -/

/-- What a read reports of the clients it was made from. -/
theorem accountOf_clients (username : String) (clients : List XuiClient) (calls : XuiReadCalls)
    (now : ℤ) :
    ((accountOf username clients calls now).remoteMetadata.elim 0 fun m => m.clients.length) =
      (clients.filter (isOurs username)).length := by
  unfold accountOf
  cases hms : clients.filter (isOurs username) with
  | nil => rfl
  | cons first rest =>
    simp only
    split <;> simp [normalizeClientAccount]

/-- A client in between changes the single read exactly if it matches. -/
theorem accountOf_insert_iff (username : String) (a b : List XuiClient) (c : XuiClient)
    (calls : XuiReadCalls) (now : ℤ) :
    accountOf username (a ++ c :: b) calls now = accountOf username (a ++ b) calls now ↔
      isOurs username c = false := by
  constructor
  · intro h
    have hlength := congrArg
      (fun r : GetServiceAccountResult => r.remoteMetadata.elim 0 fun m => m.clients.length) h
    simp only [accountOf_clients, List.filter_append, List.length_append] at hlength
    by_contra hours
    rw [List.filter_cons_of_pos (by simpa using hours)] at hlength
    simp at hlength
  · intro h
    have hsame : (a ++ c :: b).filter (isOurs username) = (a ++ b).filter (isOurs username) := by
      simp [List.filter_append, h]
    simp only [accountOf, hsame]

/-- A client of another email does not change the bulk read. -/
theorem byUsername_insert {username : String} {c : XuiClient} (h : c.email ≠ some username)
    (a b : List XuiClient) (now : ℤ) :
    byUsername (accountsOf (a ++ c :: b) now) username =
      byUsername (accountsOf (a ++ b) now) username := by
  have hc : isExact username c = false := by simpa [isExact] using h
  have hfind : (a ++ c :: b).reverse.find? (isExact username) =
      (a ++ b).reverse.find? (isExact username) := by
    simp [List.find?_append, hc]
  rw [byUsername_accountsOf, byUsername_accountsOf, hfind]

theorem isReadable_iff {credentials : XuiCredentials} {calls : XuiReadCalls} :
    isReadable credentials calls = true ↔
      authenticate credentials calls.login = .ok () ∧ calls.listClients = .answered := by
  unfold isReadable
  cases authenticate credentials calls.login <;> simp [Except.toBool]

/-- Both reads fail where the inventory cannot be read. -/
theorem reads_unreadable {credentials : XuiCredentials} {calls : XuiReadCalls}
    (h : isReadable credentials calls = false) (username : String) (now : ℤ) :
    ∃ r : GetServiceAccountResult, r.ok = false ∧ ∀ clients,
      getServiceAccount credentials username clients calls now = r ∧
        bulkMatch credentials username clients calls now = none := by
  cases hauth : authenticate credentials calls.login with
  | error session =>
    refine ⟨_, ?_, fun clients => ⟨by rw [getServiceAccount, hauth], ?_⟩⟩
    · rfl
    · simp [bulkMatch, listServiceAccounts, hauth]
  | ok _ =>
    cases hlist : calls.listClients with
    | answered =>
      have hreadable := isReadable_iff.mpr ⟨hauth, hlist⟩
      rw [h] at hreadable
      cases hreadable
    | failed failure =>
      refine ⟨_, ?_, fun clients => ⟨by rw [getServiceAccount, hauth, hlist], ?_⟩⟩
      · rfl
      · simp [bulkMatch, listServiceAccounts, hauth, hlist]

def tokenCredentials : XuiCredentials where
  authMode := .API_TOKEN
  token := "token"

def legacyClient (email : String) : XuiClient where
  email := some email
  subId := some "sub"
  totalGB := some 100
  expiryTime := some 0
  enable := some true
  traffic := some { up := some 10, down := some 20 }

end ZedBot.Panels
