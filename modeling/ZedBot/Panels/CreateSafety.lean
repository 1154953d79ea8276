import Mathlib.Data.List.Infix
import ZedBot.Panels.Marzban
import ZedBot.Panels.Xui

/-! What a create does to the accounts that were there before it.

    The Marzban adapter only ever adds a user; the question is which user it reports. The XUI
    adapter reports its own client; the question is what the add and the cleanup do to others. -/

namespace ZedBot.Panels

/-! ### Marzban -/

namespace Marzban

/-- The create failed in a way that leaves open whether it was processed. -/
def wasLost : MutationCall → Bool
  | .answered => false
  | .failed _ failure => failure.status ≠ some 409 && maybeLanded failure

/-- No account of the panel is deleted or modified, and the account of a success was created by the
    call or carries the order's note. -/
structure Safe (users : List MarzbanUser) (input : CreateServiceAccountInput)
    (outcome : CreateServiceAccountResult × List MarzbanUser) : Prop where
  kept : ∀ u ∈ users, u ∈ outcome.2
  owned : outcome.1.ok = true → ∃ u, outcome.1 = toResult u ∧
    (outcome.2 = users ++ [u] ∨
      u ∈ users ∧ ∃ note, note ≠ "" ∧ input.note = some note ∧ u.note = some note)

/-- What the adapter keeps to: the users stay as they are, and an account that was there before is
    reported only under the order's username, and not with the note of another order, unless the
    create was lost. -/
structure Spares (users : List MarzbanUser) (input : CreateServiceAccountInput)
    (calls : MarzbanCalls) (outcome : CreateServiceAccountResult × List MarzbanUser) : Prop where
  kept : outcome.2 = users ∨ ∃ u, outcome.2 = users ++ [u]
  owned : outcome.1.ok = true → ∃ u, outcome.1 = toResult u ∧
    (outcome.2 = users ++ [u] ∨ u ∈ users ∧ u.username = input.username ∧
      (foreignNote input u = false ∨ wasLost calls.createUser = true))

variable {server : MarzbanServer} {users : List MarzbanUser} {input : CreateServiceAccountInput}

/-- The panel adds the user of a payload whose username is free, and nothing else. -/
theorem createUser_cases (payload : MarzbanCreateUserPayload) :
    (∃ v, findUser users payload.username = some v ∧
      server.createUser users payload =
        (.error (panelResponded 409 server.conflictDetail), users)) ∨
    (findUser users payload.username = none ∧
      server.createUser users payload =
        (.ok (server.store payload), users ++ [server.store payload])) := by
  unfold MarzbanServer.createUser
  cases h : findUser users payload.username with
  | some v => exact .inl ⟨v, rfl, rfl⟩
  | none => exact .inr ⟨rfl, rfl⟩

theorem processCreate_kept (call : MutationCall) (payload : MarzbanCreateUserPayload) :
    (server.processCreate call users payload).2 = users ∨
      findUser users payload.username = none ∧
        (server.processCreate call users payload).2 = users ++ [server.store payload] := by
  have hcases := @createUser_cases server users payload
  cases call with
  | answered =>
    rcases hcases with ⟨v, -, h⟩ | ⟨hfree, h⟩
    · exact .inl (by simp [MarzbanServer.processCreate, h])
    · exact .inr ⟨hfree, by simp [MarzbanServer.processCreate, h]⟩
  | failed applied failure =>
    cases applied with
    | false => exact .inl rfl
    | true =>
      rcases hcases with ⟨v, -, h⟩ | ⟨hfree, h⟩
      · exact .inl (by simp [MarzbanServer.processCreate, h])
      · exact .inr ⟨hfree, by simp [MarzbanServer.processCreate, h]⟩

theorem findUser_some {u : MarzbanUser} {username : String}
    (h : findUser users username = some u) : u ∈ users ∧ u.username = username := by
  refine ⟨List.mem_of_find?_eq_some h, ?_⟩
  have hname := List.find?_some h
  simpa using hname

/-- A read that finds a user found one of the panel under that name. -/
theorem read_ok {call : ReadCall} {u : MarzbanUser} {username : String}
    (h : call.result (server.getUser users username) = .ok u) :
    u ∈ users ∧ u.username = username := by
  cases call with
  | failed failure => cases h
  | answered =>
    simp only [ReadCall.result, MarzbanServer.getUser] at h
    split at h
    · next hfound =>
      cases h
      exact findUser_some hfound
    · cases h

/-- What a success reports: the answer to the create, or an account that was read back. -/
theorem settleCreate_ok {created read : Except CallFailure MarzbanUser}
    (h : (settleCreate input created read).ok = true) :
    ∃ u, settleCreate input created read = toResult u ∧
      (created = .ok u ∨ read = .ok u ∧ ∃ failure, created = .error failure ∧
        (failure.status = some 409 ∧ foreignNote input u = false ∨
          failure.status ≠ some 409 ∧ maybeLanded failure = true)) := by
  cases created with
  | ok u => exact ⟨u, rfl, .inl rfl⟩
  | error failure =>
    simp only [settleCreate] at h ⊢
    by_cases h409 : failure.status = some 409
    · simp only [if_pos h409] at h ⊢
      cases read with
      | error existing => simp [adoptExisting] at h
      | ok u =>
        by_cases hforeign : foreignNote input u = true
        · simp [adoptExisting, hforeign] at h
        · refine ⟨u, by simp [adoptExisting, hforeign], .inr ⟨rfl, failure, rfl, .inl ⟨h409, ?_⟩⟩⟩
          simpa using hforeign
    · simp only [if_neg h409] at h ⊢
      by_cases hlanded : maybeLanded failure = true
      · simp only [if_pos hlanded] at h ⊢
        cases read with
        | error probe =>
          simp only [recoverProbed] at h
          split at h <;> cases h
        | ok u => exact ⟨u, rfl, .inr ⟨rfl, failure, rfl, .inr ⟨h409, hlanded⟩⟩⟩
      · simp [hlanded] at h

/-- A failed create of the panel that answered is a 409. -/
theorem processCreate_error {call : MutationCall} {payload : MarzbanCreateUserPayload}
    {failure : CallFailure}
    (h : (server.processCreate call users payload).1 = .error failure) :
    failure.status = some 409 ∨ ∃ applied, call = .failed applied failure := by
  cases call with
  | failed applied f =>
    cases h
    exact .inr ⟨applied, rfl⟩
  | answered =>
    rcases @createUser_cases server users payload with ⟨v, -, he⟩ | ⟨-, he⟩
    · simp only [MarzbanServer.processCreate, he] at h
      cases h
      exact .inl rfl
    · simp only [MarzbanServer.processCreate, he] at h
      cases h

/-- A create that succeeded added the user it answers with. -/
theorem processCreate_ok {call : MutationCall} {payload : MarzbanCreateUserPayload}
    {u : MarzbanUser} (h : (server.processCreate call users payload).1 = .ok u) :
    (server.processCreate call users payload).2 = users ++ [u] := by
  cases call with
  | failed applied f => cases h
  | answered =>
    rcases @createUser_cases server users payload with ⟨v, -, he⟩ | ⟨-, he⟩
    · simp only [MarzbanServer.processCreate, he] at h
      cases h
    · simp only [MarzbanServer.processCreate, he] at h ⊢
      cases h
      rfl

theorem spares_refused {calls : MarzbanCalls} {r : CreateServiceAccountResult}
    (h : r.ok = false) : Spares users input calls (r, users) where
  kept := .inl rfl
  owned hok := by simp [h] at hok

theorem resolveConfig_error {template : ReadCall} {r : CreateServiceAccountResult}
    (h : resolveConfig server users input template = .error r) : r.ok = false := by
  unfold resolveConfig at h
  simp only at h
  split at h
  · split at h
    · cases h; rfl
    · split at h
      · cases h; rfl
      · cases h
  · split at h
    · cases h; rfl
    · cases h; rfl
    · cases h

/-- The create itself, once its payload is known. -/
theorem spares_settled (calls : MarzbanCalls) {payload : MarzbanCreateUserPayload}
    (hname : payload.username = input.username) :
    Spares users input calls
      (settleCreate input (server.processCreate calls.createUser users payload).1
        (calls.readBack.result (server.getUser
          (server.processCreate calls.createUser users payload).2 input.username)),
      (server.processCreate calls.createUser users payload).2) := by
  have hkept := @processCreate_kept server users calls.createUser payload
  refine ⟨hkept.imp_right fun h => ⟨_, h.2⟩, fun hok => ?_⟩
  obtain ⟨u, hu, hcreated | ⟨hread, failure, hfailed, hwhy⟩⟩ := settleCreate_ok hok
  · exact ⟨u, hu, .inl (processCreate_ok hcreated)⟩
  obtain ⟨hmem, hu'⟩ := read_ok hread
  refine ⟨u, hu, ?_⟩
  have hwhy' : foreignNote input u = false ∨ wasLost calls.createUser = true := by
    refine hwhy.imp (·.2) fun ⟨h409, hlanded⟩ => ?_
    obtain ⟨applied, hcall⟩ := (processCreate_error hfailed).resolve_left h409
    simp [hcall, wasLost, h409, hlanded]
  rcases hkept with hsame | ⟨hfree, hadded⟩
  · rw [hsame] at hmem
    exact .inr ⟨hmem, hu', hwhy'⟩
  · -- the username was free, so what is found under it is what the create added
    rw [hadded] at hmem ⊢
    rcases List.mem_append.mp hmem with hold | hnew
    · have hnone := List.find?_eq_none.mp hfree u hold
      simp [hname, hu'] at hnone
    · exact .inl (by rw [List.mem_singleton.mp hnew])

theorem spares_createServiceAccount (server : MarzbanServer) (users : List MarzbanUser)
    (input : CreateServiceAccountInput) (calls : MarzbanCalls) :
    Spares users input calls (createServiceAccount server users input calls) := by
  unfold createServiceAccount
  split
  · exact spares_refused rfl
  · split
    · exact spares_refused rfl
    · split
      · next r herror => exact spares_refused (resolveConfig_error herror)
      · exact spares_settled calls rfl

end Marzban

/-! ### XUI -/

namespace Xui

/-- The client has the email and the subId of the order. -/
def isOwn (input : CreateServiceAccountInput) (c : XuiClient) : Bool :=
  c.email = some input.username ∧ c.subId = some input.username

/-- A failed add after which the adapter cleans up. -/
def cleansUp : AddClientCall → Bool
  | .answered => false
  | .failed _ failure => !alreadyInUse failure

/-- A client that was attached to more inbounds, and got the secrets for them that it lacked. -/
structure OnlyAttached (c c' : XuiClient) : Prop where
  rest : { c' with inboundIds := c.inboundIds, uuid := c.uuid, password := c.password } = c
  inbounds : c.inboundIds.getD [] ⊆ c'.inboundIds.getD []
  uuid : c.uuid.isSome → c'.uuid = c.uuid
  password : c.password.isSome → c'.password = c.password

/-- A success reports the order's own client, and it is there. -/
def ReportsOwn (input : CreateServiceAccountInput)
    (outcome : CreateServiceAccountResult × List XuiClient) : Prop :=
  outcome.1.ok = true → outcome.1.username = some input.username ∧
    outcome.1.subscriptionToken = some input.username ∧ ∃ c ∈ outcome.2, isOwn input c = true

/-- No client of the panel is deleted or modified, and a success reports the order's own client. -/
structure Safe (panel : XuiPanel) (input : CreateServiceAccountInput)
    (outcome : CreateServiceAccountResult × List XuiClient) : Prop where
  kept : ∀ c ∈ panel.clients, c ∈ outcome.2
  reported : ReportsOwn input outcome

/-- What the adapter keeps to: the order's own client may be attached to more inbounds, the other
    clients stay as they are; only a cleanup may do something else, to the order's email. -/
structure Spares (panel : XuiPanel) (input : CreateServiceAccountInput) (calls : XuiCalls)
    (outcome : CreateServiceAccountResult × List XuiClient) : Prop where
  kept : ∀ c ∈ panel.clients, c ∈ outcome.2 ∨
    (isOwn input c = true ∧ ∃ c' ∈ outcome.2, OnlyAttached c c') ∨
    (c.email = some input.username ∧ cleansUp calls.addClient = true)
  reported : ReportsOwn input outcome

theorem OnlyAttached.refl (c : XuiClient) : OnlyAttached c c :=
  ⟨rfl, List.Subset.refl _, fun _ => rfl, fun _ => rfl⟩

theorem OnlyAttached.trans {a b c : XuiClient} (h : OnlyAttached a b) (h' : OnlyAttached b c) :
    OnlyAttached a c where
  rest := by
    rw [← h.rest, ← h'.rest]
  inbounds := List.Subset.trans h.inbounds h'.inbounds
  uuid hsome := by rw [h'.uuid (by rw [h.uuid hsome]; exact hsome), h.uuid hsome]
  password hsome := by rw [h'.password (by rw [h.password hsome]; exact hsome), h.password hsome]

theorem or_of_isSome {o : Option String} (x : Option String) (h : o.isSome) : o.or x = o := by
  cases o with
  | none => cases h
  | some _ => rfl

variable {server : XuiServer} {panel : XuiPanel} {input : CreateServiceAccountInput}
  {payload : XuiClientPayload}

/-- STEP: a turn of the attach loop only attaches. -/
theorem attachOne_only (c : XuiClient) (id : ℤ) :
    OnlyAttached c (server.attachOne panel payload c id) where
  rest := rfl
  inbounds x hx := by
    simp only [XuiServer.attachOne, Option.getD_some]
    split
    · exact hx
    · exact List.mem_append_left _ hx
  uuid hsome := by
    simp only [XuiServer.attachOne]
    split
    · exact or_of_isSome _ hsome
    · rfl
  password hsome := by
    simp only [XuiServer.attachOne]
    split
    · exact or_of_isSome _ hsome
    · rfl

/-- RUN: and so does the loop. -/
theorem attach_only (c : XuiClient) (ids : List ℤ) :
    OnlyAttached c (server.attach panel payload c ids) := by
  induction ids generalizing c with
  | nil => exact .refl c
  | cons id ids ih => exact (attachOne_only c id).trans (ih _)

theorem OnlyAttached.email {c c' : XuiClient} (h : OnlyAttached c c') : c'.email = c.email := by
  have hrest := congrArg XuiClient.email h.rest
  exact hrest

theorem OnlyAttached.subId {c c' : XuiClient} (h : OnlyAttached c c') : c'.subId = c.subId := by
  have hrest := congrArg XuiClient.subId h.rest
  exact hrest

theorem findClient_some {clients : List XuiClient} {email : String} {c : XuiClient}
    (h : findClient clients email = some c) : c ∈ clients ∧ c.email = some email := by
  refine ⟨List.mem_of_find?_eq_some h, ?_⟩
  have hemail := List.find?_some h
  simpa using hemail

/-- A replacement changes the client that is found, and no other. -/
theorem mem_replaceClient {email : String} {old new : XuiClient} :
    ∀ {clients : List XuiClient}, findClient clients email = some old →
      new ∈ replaceClient email new clients ∧
      ∀ c ∈ clients, c = old ∨ c ∈ replaceClient email new clients
  | [], h => by cases h
  | c :: rest, h => by
    by_cases hc : (c.email == some email) = true
    · simp only [findClient, List.find?_cons, hc] at h
      cases h
      simp only [replaceClient, if_pos hc]
      refine ⟨List.mem_cons_self, fun x hx => ?_⟩
      rcases List.mem_cons.mp hx with rfl | hrest
      · exact .inl rfl
      · exact .inr (List.mem_cons_of_mem _ hrest)
    · have hrest : findClient rest email = some old := by
        simpa [findClient, List.find?_cons, hc] using h
      obtain ⟨hnew, hothers⟩ := mem_replaceClient hrest
      simp only [replaceClient, if_neg hc]
      refine ⟨List.mem_cons_of_mem _ hnew, fun x hx => ?_⟩
      rcases List.mem_cons.mp hx with rfl | hx
      · exact .inr List.mem_cons_self
      · exact (hothers x hx).imp_right (List.mem_cons_of_mem _)

/-- What an add does to the clients: nothing, or it attaches the client with the payload's email and
    subId, old or new. -/
structure Added (panel : XuiPanel) (payload : XuiClientPayload) (clients : List XuiClient) :
    Prop where
  kept : ∀ c ∈ panel.clients, c ∈ clients ∨
    (c.email = some payload.email ∧ c.subId = some payload.subId ∧
      ∃ c' ∈ clients, OnlyAttached c c')

theorem addClient_added (ids : List ℤ) :
    Added panel payload (server.addClient panel payload ids).2 := by
  constructor
  intro c hc
  unfold XuiServer.addClient
  split
  · next old hfound =>
    split
    · exact .inl hc
    · next hsub =>
      obtain ⟨hnew, hothers⟩ :=
        @mem_replaceClient _ _ (server.attach panel payload old ids) _ hfound
      rcases hothers c hc with rfl | hkept
      · exact .inr ⟨(findClient_some hfound).2, not_not.mp hsub, _, hnew, attach_only c ids⟩
      · exact .inl hkept
  · split
    · exact .inl hc
    · exact .inl (List.mem_append_left _ hc)

theorem processAdd_added (call : AddClientCall) (ids : List ℤ) :
    Added panel payload (server.processAdd call panel payload ids).2 := by
  match call with
  | .answered => exact addClient_added ids
  | .failed none _ => exact ⟨fun c hc => .inl hc⟩
  | .failed (some n) _ => exact addClient_added (ids.take n)

/-- An add that succeeds leaves a client with the payload's email and subId. -/
theorem addClient_ok {ids : List ℤ} (h : (server.addClient panel payload ids).1 = .ok ()) :
    ∃ c ∈ (server.addClient panel payload ids).2,
      c.email = some payload.email ∧ c.subId = some payload.subId := by
  unfold XuiServer.addClient at h ⊢
  split at h
  · next old hfound =>
    split at h
    · cases h
    · next hsub =>
      simp only [hfound, if_neg hsub]
      refine ⟨_, (mem_replaceClient hfound).1, ?_, ?_⟩
      · rw [(attach_only old ids).email, (findClient_some hfound).2]
      · rw [(attach_only old ids).subId, not_not.mp hsub]
  · next hnone =>
    split at h
    · cases h
    · next hfree =>
      simp only [hnone, if_neg hfree]
      refine ⟨_, List.mem_append_right _ (List.mem_singleton_self _), ?_, ?_⟩
      · exact (attach_only _ ids).email
      · exact (attach_only _ ids).subId

theorem processAdd_ok {call : AddClientCall} {ids : List ℤ}
    (h : (server.processAdd call panel payload ids).1 = .ok ()) :
    ∃ c ∈ (server.processAdd call panel payload ids).2,
      c.email = some payload.email ∧ c.subId = some payload.subId := by
  match call with
  | .answered => exact addClient_ok h
  | .failed none _ => cases h
  | .failed (some _) _ => cases h

theorem includes_append (a part b : List Char) : includes (a ++ (part ++ b)) part = true := by
  simp only [includes, List.any_eq_true, List.mem_tails, List.isPrefixOf_iff_prefix]
  exact ⟨part ++ b, List.suffix_append a _, List.prefix_append part b⟩

theorem lower_append (s t : String) :
    (LowBalance.jsToLowerCase (s ++ t)).toList =
      (LowBalance.jsToLowerCase s).toList ++ (LowBalance.jsToLowerCase t).toList := by
  change (String.map Char.toLower (s ++ t)).toList = _ ++ (String.map Char.toLower t).toList
  rw [String.toList_map, String.toList_append, List.map_append, ← String.toList_map,
    ← String.toList_map]
  rfl

theorem alreadyInUse_of_message {added : CallFailure} {a b : String}
    (hstatus : added.status = some 200) (h : added.message = a ++ ("already in use" ++ b)) :
    alreadyInUse added = true := by
  have hlower : (LowBalance.jsToLowerCase "already in use").toList = "already in use".toList := by
    rw [LowBalance.toList_jsToLowerCase]
    decide
  simp only [alreadyInUse, hstatus, h, lower_append, hlower, includes_append]
  rfl

/-- The panel's own refusal of an email or a subId is recognised as such. -/
theorem alreadyInUse_answered {ids : List ℤ} {added : CallFailure}
    (h : (server.addClient panel payload ids).1 = .error added) : alreadyInUse added = true := by
  unfold XuiServer.addClient at h
  split at h
  · split at h
    · cases h
      refine alreadyInUse_of_message (a := "Panel rejected the request: email ")
        (b := s!": {payload.email}.") rfl ?_
      simp [panelRejected, toString, ← String.toList_inj]
    · cases h
  · split at h
    · cases h
      refine alreadyInUse_of_message (a := "Panel rejected the request: subId ")
        (b := s!": {payload.subId}.") rfl ?_
      simp [panelRejected, toString, ← String.toList_inj]
    · cases h

/-- What precedes the add refuses, or leads to an add of the order's own client. -/
theorem prepare_cases (credentials : XuiCredentials) (panel : XuiPanel)
    (input : CreateServiceAccountInput) (calls : XuiCalls) :
    (∃ r, prepare credentials panel input calls = .error r ∧ r.ok = false) ∨
      ∃ totalBytes ids,
        prepare credentials panel input calls = .ok (payloadOf input totalBytes, ids) := by
  unfold prepare
  simp only [throw, throwThe, MonadExceptOf.throw, bind, Except.bind, pure, Except.pure]
  split
  · exact .inl ⟨_, rfl, rfl⟩
  split
  · exact .inl ⟨_, rfl, rfl⟩
  split
  · exact .inl ⟨_, rfl, rfl⟩
  split
  · exact .inl ⟨_, rfl, rfl⟩
  split
  · exact .inl ⟨_, rfl, rfl⟩
  split
  · exact .inl ⟨_, rfl, rfl⟩
  split
  · exact .inl ⟨_, rfl, rfl⟩
  · exact .inr ⟨_, _, rfl⟩

theorem spares_refused {calls : XuiCalls} {r : CreateServiceAccountResult} (h : r.ok = false) :
    Spares panel input calls (r, panel.clients) where
  kept c hc := .inl hc
  reported hok := by simp [h] at hok

/-- The cleanup touches no client of another email. -/
theorem cleanup_kept {clients : List XuiClient} {email : String} {calls : XuiCalls} {c : XuiClient}
    (hc : c ∈ clients) (hemail : c.email ≠ some email) :
    c ∈ (cleanupGlobalClient clients email calls).2 := by
  simp only [cleanupGlobalClient, processDelete]
  split
  · exact List.mem_filter.mpr ⟨hc, by simpa using hemail⟩
  · exact List.mem_filter.mpr ⟨hc, by simpa using hemail⟩
  · exact hc

theorem afterCleanup_ok (added : CallFailure) (cleanedUp : Bool) :
    (afterCleanup added cleanedUp).ok = false := by
  unfold afterCleanup
  split <;> rfl

theorem cleansUp_of_error {call : AddClientCall} {ids : List ℤ} {added : CallFailure}
    (h : (server.processAdd call panel payload ids).1 = .error added)
    (huse : ¬ alreadyInUse added = true) : cleansUp call = true := by
  match call with
  | .answered => exact absurd (alreadyInUse_answered h) huse
  | .failed none _ =>
    cases h
    simpa [cleansUp] using huse
  | .failed (some _) _ =>
    cases h
    simpa [cleansUp] using huse

theorem spares_createServiceAccount (server : XuiServer) (credentials : XuiCredentials)
    (panel : XuiPanel) (input : CreateServiceAccountInput) (calls : XuiCalls) :
    Spares panel input calls (createServiceAccount server credentials panel input calls) := by
  unfold createServiceAccount
  rcases prepare_cases credentials panel input calls with ⟨r, hr, hfail⟩ | ⟨bytes, ids, hprep⟩
  · rw [hr]
    exact spares_refused hfail
  rw [hprep]
  have hadded := (@processAdd_added server panel (payloadOf input bytes) calls.addClient ids).kept
  have hown : ∀ c : XuiClient, c.email = some (payloadOf input bytes).email →
      c.subId = some (payloadOf input bytes).subId → isOwn input c = true := by
    intro c hemail hsub
    exact decide_eq_true ⟨hemail, hsub⟩
  dsimp only
  split
  · next clients hok =>
    have hok₁ := congrArg Prod.fst hok
    have hok₂ := congrArg Prod.snd hok
    dsimp only at hok₂
    obtain ⟨c, hc, hemail, hsub⟩ := processAdd_ok hok₁
    rw [hok₂] at hc hadded
    refine ⟨fun x hx => ?_, fun _ => ⟨rfl, rfl, c, hc, hown c hemail hsub⟩⟩
    exact (hadded x hx).imp_right fun h => .inl ⟨hown x h.1 h.2.1, h.2.2⟩
  · next added clients herror =>
    have herr₁ := congrArg Prod.fst herror
    have herr₂ := congrArg Prod.snd herror
    dsimp only at herr₂
    rw [herr₂] at hadded
    split
    · refine ⟨fun x hx => (hadded x hx).imp_right fun h => .inl ⟨hown x h.1 h.2.1, h.2.2⟩, ?_⟩
      intro hok
      cases hok
    · next huse =>
      -- the cleanup runs: it may delete what has the email, old or new
      refine ⟨fun x hx => ?_, fun hok => ?_⟩
      · by_cases hemail : x.email = some input.username
        · exact .inr (.inr ⟨hemail, cleansUp_of_error herr₁ huse⟩)
        · rcases hadded x hx with hkept | h
          · exact .inl (cleanup_kept hkept hemail)
          · exact absurd h.1 hemail
      · exact absurd hok (by simp [afterCleanup_ok])

end Xui

/-! ### Both adapters -/

/-- SPARES: whatever the panel holds and however the calls end, a create deletes and modifies no
    account of others: Marzban's adapter only adds, and reports an older account only if its note is
    not another order's or the create was lost; XUI's reports its own client, attaches at most that
    one, and touches the order's email otherwise only in a cleanup. -/
theorem create_spares_others :
    (∀ (server : MarzbanServer) (users : List MarzbanUser) (input : CreateServiceAccountInput)
      (calls : MarzbanCalls),
      Marzban.Spares users input calls
        (Marzban.createServiceAccount server users input calls)) ∧
    (∀ (server : XuiServer) (credentials : XuiCredentials) (panel : XuiPanel)
      (input : CreateServiceAccountInput) (calls : XuiCalls),
      Xui.Spares panel input calls
        (Xui.createServiceAccount server credentials panel input calls)) :=
  ⟨Marzban.spares_createServiceAccount, Xui.spares_createServiceAccount⟩

/-! A user "zed_1" without a note was there before the order that is to get that name; and a client
    of the order itself, attached to one of its two inbounds. -/

def orderInput : CreateServiceAccountInput where
  username := "zed_1"
  note := some "zedbot order:1 tg:7"
  inboundIds := some [1, 2]
  protocolSettings := some [("vless", .object [])]

def plainMarzban : MarzbanServer where
  store payload := { username := payload.username, note := some payload.note }

def strangers : List MarzbanUser := [{ username := "zed_1" }]

def plainXui : XuiServer where
  newUuid _ := "uuid"
  newPassword _ := "password"
  links _ _ := []

def halfAttached : XuiPanel where
  inbounds := [{ id := 1, protocol := some "vless" }, { id := 2, protocol := some "vless" }]
  clients := [{ email := some "zed_1", subId := some "zed_1", uuid := some "uuid",
                inboundIds := some [1] }]

/-- The stranger's account is adopted, and the order's own client does not stay as it was. -/
theorem create_not_safe :
    ¬ Marzban.Safe strangers orderInput
      (Marzban.createServiceAccount plainMarzban strangers orderInput {}) ∧
    ¬ Xui.Safe halfAttached orderInput
      (Xui.createServiceAccount plainXui { authMode := .API_TOKEN, token := "token" } halfAttached
        orderInput {}) := by
  constructor
  · intro h
    obtain ⟨u, -, hadded | ⟨hmem, note, -, -, hnote⟩⟩ := h.owned rfl
    · have hlength : strangers.length = (strangers ++ [u]).length := congrArg List.length hadded
      simp at hlength
    · rw [List.mem_singleton.mp hmem] at hnote
      cases hnote
  · intro h
    have hlower : LowBalance.jsToLowerCase "vless" = "vless" := by
      rw [← String.toList_inj, LowBalance.toList_jsToLowerCase]
      decide
    have hvalid : ([1, 2] : List ℤ).findSome? (fun id =>
        Xui.validateInbound (findInbound halfAttached.inbounds id) id) = none := by
      simp [halfAttached, findInbound, Xui.validateInbound, hlower, Xui.SUPPORTED_PROTOCOLS]
    have hids : Xui.integerIds orderInput.inboundIds = [1, 2] := by decide +kernel
    have hprep : Xui.prepare { authMode := .API_TOKEN, token := "token" } halfAttached
        orderInput {} = .ok (Xui.payloadOf orderInput 0, [1, 2]) := by
      have hlimit : dataLimitOf orderInput.volumeBytes = some 0 := rfl
      have hown : (findClient halfAttached.clients orderInput.username).any
          (Xui.foreignSubId orderInput.username) = false := by decide
      simp [Xui.prepare, authenticate, ReadCall.result, bind, Except.bind, pure, Except.pure, hids,
        hlimit, hvalid, hown]
    have hkept := h.kept _ List.mem_cons_self
    rw [Xui.createServiceAccount, hprep] at hkept
    revert hkept
    decide

end ZedBot.Panels
