import Metaobject.Proofs.Chain.Nesting
import Metaobject.Proofs.Proxy.Call

/-!
Which handler of a chain decides. Handlers are asked in turn, and the first that answers or fails
settles the invocation: nobody behind it is asked. Only when all have declined it is the turn of the
fallback. A handler that lets every invocation pass can stand anywhere among the others, and none of
them can tell.
-/
namespace Metaobject

variable {σ α : Type}

/-- The second list is the first with elements inserted that have a property. -/
inductive Padded (P : α → Prop) : List α → List α → Prop where
  | nil : Padded P [] []
  | keep (x : α) {xs ys : List α} (hRest : Padded P xs ys) : Padded P (x :: xs) (x :: ys)
  | insert {y : α} {xs ys : List α} (hy : P y) (hRest : Padded P xs ys) : Padded P xs (y :: ys)

namespace Padded

variable {P : α → Prop} {xs ys xs' ys' : List α}

theorem refl (xs : List α) : Padded P xs xs := by
  induction xs with
  | nil => exact .nil
  | cons x rest ih => exact .keep x ih

theorem append (hFirst : Padded P xs ys) (hLast : Padded P xs' ys') :
    Padded P (xs ++ xs') (ys ++ ys') := by
  induction hFirst with
  | nil => exact hLast
  | keep x _ ih => exact .keep x ih
  | insert hy _ ih => exact .insert hy ih

end Padded

/-- What there is to tell when others have been asked before. -/
def Account.behind (a : Account σ α) (before : List (Handler × World σ)) : Account σ α :=
  { a with asked := before ++ a.asked }

namespace Handler

section Roles

variable (client : Client σ) (serve : Serve σ) (i : Invocation)

/-- A handler lets an invocation pass: it declines it and leaves the world alone, whatever world it
finds. -/
def Passes (x : Handler) : Prop :=
  ∀ w : World σ, x.handle client serve i w = (.ok none, w)

/-- Among some handlers that are asked in turn, one settles the matter: those before it decline, and
in the world that they leave it answers or fails. -/
structure Settles (xs : List Handler) (w : World σ) (before : List Handler) (x : Handler)
    (after : List Handler) (u : World σ) : Prop where
  split : xs = before ++ x :: after
  declined : Decline client serve i before w u
  applies : (x.handle client serve i u).1 ≠ .ok none

end Roles

variable {client : Client σ} {serve : Serve σ} {i : Invocation} {w u : World σ}
  {xs ys before after : List Handler} {x : Handler}

/-- Nothing passes a handler that answers or fails. -/
theorem firstAnswer_of_applies (hApplies : (x.handle client serve i w).1 ≠ .ok none) :
    firstAnswer client serve (x :: xs) i w = x.handle client serve i w := by
  rw [firstAnswer]
  rcases hx : x.handle client serve i w with ⟨e | _ | v, u⟩
  · exact Run.bind_error hx
  · simp [hx] at hApplies
  · rw [Run.bind_ok hx]
    rfl

/-- A handler alone is asked as it is. -/
theorem firstAnswer_singleton : firstAnswer client serve [x] i w = x.handle client serve i w := by
  by_cases hApplies : (x.handle client serve i w).1 ≠ .ok none
  · exact firstAnswer_of_applies hApplies
  · have hx : x.handle client serve i w = (.ok none, (x.handle client serve i w).2) :=
      Prod.ext (not_not.mp hApplies) rfl
    rw [hx]
    exact firstAnswer_of_decline (.cons hx (.nil _))

/-- Handlers that decline hand the invocation on to those behind them. -/
theorem firstAnswer_append_of_decline (hDecline : Decline client serve i xs w u) :
    firstAnswer client serve (xs ++ ys) i w = firstAnswer client serve ys i u := by
  induction hDecline with
  | nil w => rfl
  | cons hFirst _ ih =>
      rw [List.cons_append, firstAnswer, Run.bind_ok hFirst]
      exact ih

theorem Settles.firstAnswer_eq (hSettles : Settles client serve i xs w before x after u) :
    firstAnswer client serve xs i w = x.handle client serve i u := by
  rw [hSettles.split, firstAnswer_append_of_decline hSettles.declined]
  exact firstAnswer_of_applies hSettles.applies

/-- All handlers decline, or one of them settles the matter. -/
theorem decline_or_settles (client : Client σ) (serve : Serve σ) (i : Invocation)
    (xs : List Handler) (w : World σ) :
    (∃ u, Decline client serve i xs w u) ∨
      ∃ before x after u, Settles client serve i xs w before x after u := by
  induction xs generalizing w with
  | nil => exact .inl ⟨w, .nil w⟩
  | cons y rest ih =>
      by_cases hFirst : (y.handle client serve i w).1 = .ok none
      · have hy : y.handle client serve i w = (.ok none, (y.handle client serve i w).2) :=
          Prod.ext hFirst rfl
        cases ih (y.handle client serve i w).2 with
        | inl hAll =>
            obtain ⟨u, hRest⟩ := hAll
            exact .inl ⟨u, .cons hy hRest⟩
        | inr hOne =>
            obtain ⟨before, x, after, u, hSplit, hBefore, hx⟩ := hOne
            refine .inr ⟨y :: before, x, after, u, ?_, .cons hy hBefore, hx⟩
            rw [hSplit, List.cons_append]
      · exact .inr ⟨[], y, rest, w, rfl, .nil w, hFirst⟩

/-- Not both: asking the handlers has one outcome. -/
theorem not_decline_of_settles (hSettles : Settles client serve i xs w before x after u) :
    ¬ ∃ v, Decline client serve i xs w v := by
  intro hAll
  obtain ⟨v, hDecline⟩ := hAll
  apply hSettles.applies
  rw [← hSettles.firstAnswer_eq, firstAnswer_of_decline hDecline]

/-- Handlers that decline have all run, and leave their world behind. -/
theorem accountOf_of_decline (hDecline : Decline client serve i xs w u) :
    (accountOf client serve i xs w).declined = true ∧
      (accountOf client serve i xs w).left = u ∧
      (accountOf client serve i xs w).handlers = leavesOf xs := by
  have hOutcome : (accountOf client serve i xs w).outcome = (.ok none, u) :=
    (accountOf_eq_firstAnswer xs w).trans (firstAnswer_of_decline hDecline)
  have hEnding : (accountOf client serve i xs w).ending = .ok none := congrArg Prod.fst hOutcome
  have hDeclined : (accountOf client serve i xs w).declined = true := by
    rw [Account.declined, hEnding]
  exact ⟨hDeclined, congrArg Prod.snd hOutcome, (handlers_accountOf xs w).2 hDeclined⟩

theorem declined_account_of_applies (hApplies : (x.handle client serve i w).1 ≠ .ok none) :
    (x.account client serve i w).declined = false := by
  rw [← account_eq_handle] at hApplies
  generalize x.account client serve i w = a at hApplies ⊢
  obtain ⟨asked, e | _ | v, left⟩ := a
  · rfl
  · exact absurd rfl hApplies
  · rfl

/-- The account of asking handlers one of which settles the matter ends with it. -/
theorem Settles.accountOf_eq (hSettles : Settles client serve i xs w before x after u) :
    accountOf client serve i xs w =
      (x.account client serve i u).behind (accountOf client serve i before w).asked := by
  obtain ⟨hDeclined, hLeft, -⟩ := accountOf_of_decline hSettles.declined
  rw [hSettles.split, accountOf_append, Account.andThen_of_declined hDeclined, hLeft, accountOf,
    Account.andThen_of_not_declined (declined_account_of_applies hSettles.applies)]
  rfl

theorem account_of_not_isChain (hx : x.isChain = false) (w : World σ) :
    x.account client serve i w =
      ⟨[(x, w)], (x.handle client serve i w).1, (x.handle client serve i w).2⟩ := by
  cases x with
  | chain handlers fallback => cases hx
  | _ => rfl

/-- Without chains among them, handlers stand for themselves. -/
theorem leavesOf_eq_self (hxs : ∀ x ∈ xs, x.isChain = false) : leavesOf xs = xs := by
  induction xs with
  | nil => rfl
  | cons x rest ih =>
      have hx : x.leaves = [x] := by
        have hFirst := hxs x List.mem_cons_self
        cases x with
        | chain handlers fallback => cases hFirst
        | _ => rfl
      rw [leavesOf, hx, ih fun y hy => hxs y (List.mem_cons_of_mem x hy)]
      rfl

theorem passes_decline : Passes client serve i .decline := fun _ => rfl

theorem passes_trace (label : String) : Passes client serve i (.trace label) := fun _ => rfl

/-- Inserting handlers that let the invocation pass changes neither the outcome nor what the others
find: the same handlers run in the same worlds, with inserted ones among them. -/
theorem accountOf_padded (hPadded : Padded (Passes client serve i) xs ys)
    (hFlat : ∀ y ∈ ys, y.isChain = false) (w : World σ) :
    (accountOf client serve i ys w).outcome = (accountOf client serve i xs w).outcome ∧
      Padded (fun e => e.1.Passes client serve i) (accountOf client serve i xs w).asked
        (accountOf client serve i ys w).asked := by
  induction hPadded generalizing w with
  | nil => exact ⟨rfl, .nil⟩
  | @keep x xs ys _ ih =>
      obtain ⟨hSame, hAsked⟩ := ih (fun y hy => hFlat y (List.mem_cons_of_mem x hy))
        (x.account client serve i w).left
      rw [accountOf, accountOf]
      cases hx : (x.account client serve i w).declined with
      | false =>
          rw [Account.andThen_of_not_declined hx, Account.andThen_of_not_declined hx]
          exact ⟨rfl, .refl _⟩
      | true =>
          rw [Account.andThen_of_declined hx, Account.andThen_of_declined hx]
          exact ⟨hSame, Padded.append (.refl _) hAsked⟩
  | @insert y xs ys hy _ ih =>
      obtain ⟨hSame, hAsked⟩ := ih (fun z hz => hFlat z (List.mem_cons_of_mem y hz)) w
      have hPass : y.account client serve i w = ⟨[(y, w)], .ok none, w⟩ := by
        rw [account_of_not_isChain (hFlat y List.mem_cons_self), hy w]
      rw [accountOf, hPass, Account.andThen_of_declined rfl]
      exact ⟨hSame, .insert hy hAsked⟩

end Handler

namespace Chain

open Handler

/-- How an invocation ends, by the answer of the handler that was asked last. -/
def conclude (i : Invocation) :
    Except (Stop ProxyError) Answer × World σ → Except (Stop ProxyError) Value × World σ
  | (.ok (some v), w) => (.ok v, w)
  | (.ok none, w) => (.error (.raised (.unhandled i)), w)
  | (.error e, w) => (.error e, w)

variable {client : Client σ} {serve : Serve σ} {i : Invocation} {w u : World σ}
  {before after : List Handler} {x : Handler} {k k' : Chain}

theorem outcome_conclude (a : Account σ Answer) (i : Invocation) :
    (a.conclude i).outcome = conclude i a.outcome := by
  obtain ⟨asked, e | _ | v, left⟩ := a <;> rfl

/-- The chain ends with what the first handler that applies makes of the invocation. -/
theorem account_of_settles
    (hSettles : Settles client serve i k.handlers w before x after u) :
    k.account client serve i w =
      ((x.account client serve i u).behind (accountOf client serve i before w).asked).conclude
        i := by
  have hLast : ((x.account client serve i u).behind
      (accountOf client serve i before w).asked).declined = false :=
    declined_account_of_applies hSettles.applies
  rw [account, hSettles.accountOf_eq, Account.andThen_of_not_declined hLast]

/-- When all handlers have declined, the chain ends with what the fallback makes of it. -/
theorem account_of_decline (hDecline : Decline client serve i k.handlers w u) :
    k.account client serve i w =
      ((k.fallback.account client serve i u).behind
        (accountOf client serve i k.handlers w).asked).conclude i := by
  obtain ⟨hDeclined, hLeft, -⟩ := accountOf_of_decline hDecline
  rw [account, Account.andThen_of_declined hDeclined, hLeft]
  rfl

/-- A chain with handlers inserted that let the invocation pass, at any depth. -/
theorem account_padded
    (hHandlers : Padded (Passes client serve i) k.flat.handlers k'.flat.handlers)
    (hFallback : Padded (Passes client serve i) k.fallback.leaves k'.fallback.leaves)
    (w : World σ) :
    (k'.account client serve i w).outcome = (k.account client serve i w).outcome ∧
      Padded (fun e => e.1.Passes client serve i) (k.account client serve i w).asked
        (k'.account client serve i w).asked := by
  have hPadded := (hHandlers.append hFallback)
  have hFlat : ∀ y ∈ k'.flat.handlers ++ k'.fallback.leaves, y.isChain = false := by
    intro y hy
    cases List.mem_append.mp hy with
    | inl hFirst => exact not_isChain_of_mem_leavesOf _ y hFirst
    | inr hLast => exact not_isChain_of_mem_leaves _ y hLast
  -- a chain asks what it asks as if its fallback were the last of its handlers
  have hAccount (l : Chain) : l.account client serve i w =
      (accountOf client serve i (l.flat.handlers ++ l.fallback.leaves) w).conclude i := by
    rw [account, accountOf_append, flat, accountOf_leavesOf]
    congr 2
    funext v
    exact (accountOf_leaves l.fallback v).symm
  obtain ⟨hSame, hAsked⟩ := accountOf_padded hPadded hFlat w
  rw [hAccount k, hAccount k']
  constructor
  · rw [outcome_conclude, outcome_conclude, hSame]
  · exact hAsked

end Chain

open Handler in
/-- The first handler of a chain that applies settles an invocation. Either all handlers decline it
one after another, or there is a first one that answers or fails, and never both.

In the second case the chain ends with the value or the error of that handler. Those that have run
are the handlers before it and then itself, once each and in this order, a chain among them through
its own handlers. What stands behind it and which fallback there is makes no difference.

In the first case the fallback runs, once, in the world that the handlers have left and after all of
them, and the chain ends with its value or its error. If it declines too, the invocation is
unhandled.

Handlers that let the invocation pass may be inserted anywhere, also within chains that stand in for
handlers: the chain ends as before, and the others run as before, each in the same world. Those that
do nothing are such handlers, and those that trace what comes by. -/
theorem resolve_by_first_applicable (client : Client σ) (serve : Serve σ) (k : Chain)
    (i : Invocation) (w : World σ) :
    Xor (∃ u, Decline client serve i k.handlers w u)
      (∃ before x after u, Settles client serve i k.handlers w before x after u) ∧
    (∀ before x after u, Settles client serve i k.handlers w before x after u →
      k.resolve client serve i w = Chain.conclude i (x.handle client serve i u) ∧
      (k.account client serve i w).asked =
        (accountOf client serve i before w).asked ++ (x.account client serve i u).asked ∧
      (k.account client serve i w).handlers =
        leavesOf before ++ (x.account client serve i u).handlers ∧
      ((∀ y ∈ k.handlers, y.isChain = false) →
        (k.account client serve i w).handlers = before ++ [x]) ∧
      ∀ after' fallback',
        Chain.resolve client serve ⟨before ++ x :: after', fallback'⟩ i w =
          k.resolve client serve i w ∧
        Chain.account client serve i ⟨before ++ x :: after', fallback'⟩ w =
          k.account client serve i w) ∧
    (∀ u, Decline client serve i k.handlers w u →
      k.resolve client serve i w = Chain.conclude i (k.fallback.handle client serve i u) ∧
      (k.account client serve i w).asked =
        (accountOf client serve i k.handlers w).asked ++
          (k.fallback.account client serve i u).asked ∧
      (k.account client serve i w).handlers =
        leavesOf k.handlers ++ (k.fallback.account client serve i u).handlers) ∧
    (∀ k' : Chain, Padded (Passes client serve i) k.flat.handlers k'.flat.handlers →
      Padded (Passes client serve i) k.fallback.leaves k'.fallback.leaves →
      k'.resolve client serve i w = k.resolve client serve i w ∧
      Padded (fun e => e.1.Passes client serve i) (k.account client serve i w).asked
        (k'.account client serve i w).asked) ∧
    Passes client serve i .decline ∧ ∀ label, Passes client serve i (.trace label) := by
  refine ⟨?_, fun before x after u hSettles => ?_, fun u hDecline => ?_,
    fun k' hHandlers hFallback => ?_, passes_decline, passes_trace⟩
  · cases decline_or_settles client serve i k.handlers w with
    | inl hAll =>
        refine .inl ⟨hAll, fun hOne => ?_⟩
        obtain ⟨before, x, after, u, hSettles⟩ := hOne
        exact not_decline_of_settles hSettles hAll
    | inr hOne =>
        refine .inr ⟨hOne, ?_⟩
        obtain ⟨before, x, after, u, hSettles⟩ := hOne
        exact not_decline_of_settles hSettles
  · have hAccount := Chain.account_of_settles hSettles
    obtain ⟨-, -, hBefore⟩ := accountOf_of_decline hSettles.declined
    have hHandlers : (k.account client serve i w).handlers =
        leavesOf before ++ (x.account client serve i u).handlers := by
      rw [← hBefore, hAccount]
      exact List.map_append
    refine ⟨?_, by rw [hAccount]; rfl, hHandlers, fun hFlat => ?_, fun after' fallback' => ?_⟩
    · rw [← Chain.account_eq_resolve, hAccount, Chain.outcome_conclude, ← account_eq_handle]
      rfl
    · rw [hSettles.split] at hFlat
      have hx : x.isChain = false := hFlat x (by simp)
      rw [hHandlers, account_of_not_isChain hx,
        leavesOf_eq_self fun y hy => hFlat y (List.mem_append_left _ hy)]
      rfl
    · have hOther : Settles client serve i
          (⟨before ++ x :: after', fallback'⟩ : Chain).handlers w before x after' u :=
        ⟨rfl, hSettles.declined, hSettles.applies⟩
      have hSame := (Chain.account_of_settles hOther).trans hAccount.symm
      rw [← Chain.account_eq_resolve, ← Chain.account_eq_resolve, hSame]
      exact ⟨rfl, rfl⟩
  · have hAccount := Chain.account_of_decline hDecline
    obtain ⟨-, -, hBefore⟩ := accountOf_of_decline hDecline
    refine ⟨?_, by rw [hAccount]; rfl, ?_⟩
    · rw [← Chain.account_eq_resolve, hAccount, Chain.outcome_conclude, ← account_eq_handle]
      rfl
    · rw [← hBefore, hAccount]
      exact List.map_append
  · obtain ⟨hSame, hAsked⟩ := Chain.account_padded hHandlers hFallback w
    rw [Chain.account_eq_resolve, Chain.account_eq_resolve] at hSame
    exact ⟨hSame, hAsked⟩

/-- A chain whose third handler answers for the object alone; behind it is one that fails. -/
def secondThoughts : Chain where
  handlers := [.trace "seen", .decline, .identity, .unhandled]

/-- The chain with a note taken between its handlers and another one within a chain. -/
def noted : Chain where
  handlers := [.chain [.trace "seen", .trace "in"] .unhandled, .decline, .trace "out", .identity,
    .unhandled]

/-- The question for the hash of an object. -/
def hashOf (o : ObjectRef) : Invocation where
  method := .hashCode
  receiver? := some o
  arguments := []

open Handler in
/-- The third handler answers for any object, the one behind it does not run, and it is the same
with notes taken. -/
theorem resolve_secondThoughts :
    let o : ObjectRef := ⟨0, ⟨4⟩⟩
    let serve := perform Stub.client 0
    secondThoughts.resolve Stub.client serve (hashOf o) gateWorld =
      (.ok (.int o.identityHash), gateWorld) ∧
    (secondThoughts.account Stub.client serve (hashOf o) gateWorld).handlers =
      [.trace "seen", .decline, .identity] ∧
    noted.resolve Stub.client serve (hashOf o) gateWorld =
      (.ok (.int o.identityHash), gateWorld) := by
  intro o serve
  obtain ⟨-, hSettled, -, hInserted, -, hTrace⟩ :=
    resolve_by_first_applicable Stub.client serve secondThoughts (hashOf o) gateWorld
  have hThird : Settles Stub.client serve (hashOf o) secondThoughts.handlers gateWorld
      [.trace "seen", .decline] .identity [.unhandled] gateWorld :=
    ⟨rfl, .cons rfl (.cons rfl (.nil gateWorld)), fun hDeclined => by cases hDeclined⟩
  obtain ⟨hResolve, -, -, hRan, -⟩ := hSettled _ _ _ _ hThird
  have hNoted : Padded (Passes Stub.client serve (hashOf o)) secondThoughts.flat.handlers
      noted.flat.handlers :=
    .keep _ (.insert (hTrace "in") (.keep _ (.insert (hTrace "out") (.refl _))))
  have hFlat : ∀ y ∈ secondThoughts.handlers, y.isChain = false := by
    simp [secondThoughts, isChain]
  refine ⟨hResolve, hRan hFlat, ?_⟩
  rw [(hInserted noted hNoted (.refl _)).1]
  exact hResolve

end Metaobject
