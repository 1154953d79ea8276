import ZedBot.GrowingHistory
import ZedBot.Stars.Recovery

/-! The passes of the transaction recovery.

    A pass asks for pages of Telegram's history, evaluates their transactions one by one, and keeps the
    offset of the bootstrap in the cursor row. Here any number of passes run over one cursor row while
    transactions come in at the front of the history, requests fail, evaluations throw and passes die;
    what an evaluation finds in the database is left to an oracle. -/

namespace ZedBot.Stars.Scan
open GrowingHistory

/-- What `tryRecoverPayment` and `tryReconcileRefund` answer; `none` where they throw. -/
structure Oracle where
  recover : Option RecoverOutcome := some .ignored
  refund : Option Bool := some false
  deriving DecidableEq, Repr

/-- One transaction: the counters after it, and whether its evaluation returned. -/
def scanOne (o : Oracle) (counters : RecoveryCounters) (tx : StarTransaction) :
    RecoveryCounters × Bool :=
  let counters := { counters with transactionsChecked := counters.transactionsChecked + 1 }
  if isSubscriptionPayment tx then
    match o.recover with
    | some .recovered => ({ counters with chargesRecovered := counters.chargesRecovered + 1 }, true)
    | some .review => ({ counters with requiresReview := counters.requiresReview + 1 }, true)
    | some .ignored => (counters, true)
    | none => (counters, false)
  else if isOutgoingRefund tx then
    match o.refund with
    | some true => ({ counters with refundsConfirmed := counters.refundsConfirmed + 1 }, true)
    | some false => (counters, true)
    | none => (counters, false)
  else (counters, true)

@[simp] theorem scanOne_checked (o : Oracle) (counters : RecoveryCounters) (tx : StarTransaction) :
    (scanOne o counters tx).1.transactionsChecked = counters.transactionsChecked + 1 := by
  rw [scanOne]
  split_ifs
  · cases o.recover with
    | none => rfl
    | some outcome => cases outcome <;> rfl
  · cases o.refund with
    | none => rfl
    | some confirmed => cases confirmed <;> rfl
  · rfl

/-- The locals of a pass; `atStart` is what the history was when it began. -/
structure PassRun where
  bootstrap : Bool
  cursorOffset : ℕ
  oldestRelevant : ℕ
  runOffset : ℕ
  persistentOffset : ℕ
  page : ℕ := 0
  counters : RecoveryCounters := {}
  atStart : List StarTransaction
  deriving DecidableEq, Repr

/-- The locals after a page. -/
def PassRun.afterPage (run : PassRun) (transactions : List StarTransaction) : PassRun :=
  { run with
    runOffset := run.runOffset + transactions.length
    persistentOffset :=
      if run.bootstrap then run.cursorOffset + run.counters.transactionsChecked
      else run.persistentOffset
    page := run.page + 1
    counters := { run.counters with pagesProcessed := run.counters.pagesProcessed + 1 } }

/-- What the end of a page writes to the cursor. -/
def PassRun.advance (run : PassRun) (shortPage : Bool) (c : TelegramStarsReconciliationCursor) :
    TelegramStarsReconciliationCursor :=
  { c with
    nextOffset := run.persistentOffset
    consecutiveFailureCount := 0
    bootstrapCompleted := c.bootstrapCompleted || (run.bootstrap && shortPage) }

inductive Pass
  | ready
  | paging (run : PassRun)
  /-- On a page, with the transactions that are left of it. -/
  | scanning (run : PassRun) (transactions rest : List StarTransaction)
  | done (run : PassRun) (cursorStale : Bool)
  | skipped
  | dead
  deriving DecidableEq, Repr

/-- What a pass returns. -/
def PassRun.result (run : PassRun) (cursorStale : Bool) : RecoveryResult :=
  ⟨run.counters, cursorStale, run.persistentOffset⟩

/-- The evaluation of a transaction by a pass; `ok` where it did not throw. -/
structure Evaluation where
  pass : ℕ
  tx : StarTransaction
  ok : Bool
  deriving DecidableEq, Repr

structure System where
  /-- Telegram's history, newest first. -/
  history : List StarTransaction
  cursor : Option TelegramStarsReconciliationCursor := none
  passes : ℕ → Pass := fun _ => .ready
  evaluations : List Evaluation := []
  /-- What the history was when the cursor row was created. -/
  atBootstrap : List StarTransaction := []

/-- What may happen next; `p` is the pass. -/
inductive Event
  | prepend (tx : StarTransaction)
  /-- A pass begins, with a bot token or without one. -/
  | start (p now : ℕ) (token : Bool)
  /-- A request for a page is answered or fails. -/
  | fetch (p : ℕ) (answered : Bool)
  | evaluate (p : ℕ) (o : Oracle)
  | persist (p : ℕ)
  | die (p : ℕ)
  deriving DecidableEq, Repr

namespace System

variable (configs : ℕ → StarsSubscriptionConfig)

def setPass (s : System) (p : ℕ) (x : Pass) : System :=
  { s with passes := Function.update s.passes p x }

@[simp] theorem setPass_self (s : System) (p : ℕ) (x : Pass) : (s.setPass p x).passes p = x :=
  Function.update_self ..

@[simp] theorem setPass_of_ne (s : System) {p q : ℕ} (x : Pass) (h : q ≠ p) :
    (s.setPass p x).passes q = s.passes q := Function.update_of_ne h ..

/-- `loadOrCreateCursor`, and the locals of the pass. -/
def startPass (s : System) (p now : ℕ) : System :=
  let cursor := s.cursor.getD {}
  { s.setPass p (.paging
      { bootstrap := ¬ cursor.bootstrapCompleted
        cursorOffset := cursor.nextOffset
        oldestRelevant := now - (configs p).transactionLookbackHours * 3600000
        runOffset := if cursor.bootstrapCompleted then 0 else cursor.nextOffset
        persistentOffset := cursor.nextOffset
        atStart := s.history }) with
    cursor := some cursor
    atBootstrap := if s.cursor = none then s.history else s.atBootstrap }

def updateCursor (s : System)
    (data : TelegramStarsReconciliationCursor → TelegramStarsReconciliationCursor) : System :=
  { s with cursor := s.cursor.map data }

/-- The end of a page: the cursor is moved, and the pass goes on or has come to its end. -/
def persistPage (s : System) (p : ℕ) (run : PassRun) (transactions : List StarTransaction) : System :=
  let shortPage : Bool := transactions.length < (configs p).transactionPageSize
  let run := run.afterPage transactions
  (s.updateCursor (run.advance shortPage)).setPass p
    (if shortPage ∨ (¬ run.bootstrap ∧ pastLookback run.oldestRelevant transactions) then
      .done run false
    else .paging run)

def step (s : System) : Event → Option System
  | .prepend tx =>
    if ∀ x ∈ s.history, x.date ≤ tx.date then some { s with history := tx :: s.history } else none
  | .start p now token =>
    if s.passes p = .ready then
      if token then some (s.startPass configs p now) else some (s.setPass p .skipped)
    else none
  | .fetch p answered =>
    match s.passes p with
    | .paging run =>
      if run.page < (configs p).maxPagesPerRun then
        if answered then
          let transactions := slice s.history run.runOffset (configs p).transactionPageSize
          some (s.setPass p (.scanning run transactions transactions))
        else
          some ((s.updateCursor fun c =>
            { c with consecutiveFailureCount := c.consecutiveFailureCount + 1 }).setPass p
              (.done run true))
      else some (s.setPass p (.done run false))
    | _ => none
  | .evaluate p o =>
    match s.passes p with
    | .scanning run transactions (tx :: rest) =>
      let scanned := scanOne o run.counters tx
      some { s.setPass p (.scanning { run with counters := scanned.1 } transactions rest) with
        evaluations := ⟨p, tx, scanned.2⟩ :: s.evaluations }
    | _ => none
  | .persist p =>
    match s.passes p with
    | .scanning run transactions [] => some (s.persistPage configs p run transactions)
    | _ => none
  | .die p => some (s.setPass p .dead)

def exec (s : System) : List Event → Option System
  | [] => some s
  | e :: es => (s.step configs e).bind fun s' => s'.exec es

/-- A state that is reached by some events. -/
inductive Reaches (s : System) : System → Prop
  | refl : Reaches s s
  | tail {s' s'' : System} (e : Event) (h : Reaches s s') (hs : s'.step configs e = some s'') :
    Reaches s s''

end System

end ZedBot.Stars.Scan
