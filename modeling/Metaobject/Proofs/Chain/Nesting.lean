import Mathlib.Data.List.Basic
import Metaobject.Handling
import Metaobject.Proofs.World.Run

/-!
Chains inside chains. A chain that stands in for a handler asks its own handlers and no fallback, so
it does what these handlers would do in its place. That is so of all that can be told about the
resolving of an invocation: which handlers run, in which order, what world each of them finds, and
how it ends.
-/
namespace Metaobject

variable {σ α : Type}

namespace Handler

/-- The handler is a chain. -/
def isChain : Handler → Bool
  | .chain .. => true
  | _ => false

mutual

/-- The handlers that a handler stands for: those inside it if it is a chain, or else itself. -/
def leaves (x : Handler) : List Handler :=
  match x with
  | .chain handlers _ => leavesOf handlers
  | x => [x]

/-- The handlers that some handlers stand for, in order. -/
def leavesOf (xs : List Handler) : List Handler :=
  match xs with
  | [] => []
  | x :: rest => leaves x ++ leavesOf rest

end

end Handler

/-- The chain with every chain inside it replaced by its handlers. Of the fallbacks only its own is
kept. -/
def Chain.flat (k : Chain) : Chain where
  handlers := Handler.leavesOf k.handlers
  fallback := k.fallback

/-- What there is to tell when handlers have been asked: those that ran, each with the world that it
found, how it ended, and the world that was left. -/
structure Account (σ α : Type) where
  asked : List (Handler × World σ)
  ending : Except (Stop ProxyError) α
  left : World σ

namespace Account

/-- The handlers that ran, in order. -/
def handlers (a : Account σ α) : List Handler :=
  a.asked.map Prod.fst

/-- How it ended and what was left, as the program has it. -/
def outcome (a : Account σ α) : Except (Stop ProxyError) α × World σ :=
  (a.ending, a.left)

/-- All handlers that were asked have declined. -/
def declined (a : Account σ Answer) : Bool :=
  a.ending matches .ok none

/-- If all that were asked have declined, more are asked. -/
def andThen (a : Account σ Answer) (next : World σ → Account σ Answer) : Account σ Answer :=
  if a.declined then
    ⟨a.asked ++ (next a.left).asked, (next a.left).ending, (next a.left).left⟩
  else a

/-- An invocation that all have declined is unhandled. -/
def conclude (a : Account σ Answer) (i : Invocation) : Account σ Value where
  asked := a.asked
  ending := a.ending.bind fun
    | some v => .ok v
    | none => .error (.raised (.unhandled i))
  left := a.left

end Account

section Telling

variable (client : Client σ) (serve : Serve σ) (i : Invocation)

namespace Handler

mutual

/-- The account of asking a handler. A chain does not run itself. -/
def account (x : Handler) (w : World σ) : Account σ Answer :=
  match x with
  | .chain handlers _ => accountOf handlers w
  | x => ⟨[(x, w)], (x.handle client serve i w).1, (x.handle client serve i w).2⟩

/-- The account of asking handlers in turn. -/
def accountOf (xs : List Handler) (w : World σ) : Account σ Answer :=
  match xs with
  | [] => ⟨[], .ok none, w⟩
  | x :: rest => (account x w).andThen fun u => accountOf rest u

end

end Handler

/-- The account of resolving an invocation by a chain: its handlers are asked, and then its
fallback. -/
def Chain.account (k : Chain) (w : World σ) : Account σ Value :=
  ((Handler.accountOf client serve i k.handlers w).andThen
    (k.fallback.account client serve i)).conclude i

end Telling

variable {client : Client σ} {serve : Serve σ} {i : Invocation}

namespace Account

variable {a : Account σ Answer} {f g : World σ → Account σ Answer}

theorem andThen_of_declined (ha : a.declined = true) :
    a.andThen f = ⟨a.asked ++ (f a.left).asked, (f a.left).ending, (f a.left).left⟩ := by
  rw [andThen, if_pos ha]

theorem andThen_of_not_declined (ha : a.declined = false) : a.andThen f = a := by
  rw [andThen, ha, if_neg Bool.false_ne_true]

/-- After those that come later, still later ones are asked. -/
theorem andThen_assoc : (a.andThen f).andThen g = a.andThen fun u => (f u).andThen g := by
  cases ha : a.declined with
  | false => rw [andThen_of_not_declined ha, andThen_of_not_declined ha, andThen_of_not_declined ha]
  | true =>
      rw [andThen_of_declined ha, andThen_of_declined ha]
      cases hf : (f a.left).declined with
      | false => rw [andThen_of_not_declined hf, andThen_of_not_declined (by exact hf)]
      | true =>
          rw [andThen_of_declined hf, andThen_of_declined (by exact hf), List.append_assoc]

/-- Asking nobody more changes nothing. -/
theorem andThen_nobody : (a.andThen fun u => ⟨[], .ok none, u⟩) = a := by
  cases ha : a.declined with
  | false => rw [andThen_of_not_declined ha]
  | true =>
      rw [andThen_of_declined ha, List.append_nil]
      obtain ⟨asked, _ | _ | v, left⟩ := a
      · cases ha
      · rfl
      · cases ha

/-- Those that run when more are asked come before or are among these. -/
theorem handlers_andThen_prefix {xs ys : List Handler} (ha : a.handlers <+: xs)
    (hAll : a.declined = true → a.handlers = xs) (hf : (f a.left).handlers <+: ys) :
    (a.andThen f).handlers <+: xs ++ ys := by
  cases hDeclined : a.declined with
  | false =>
      rw [andThen_of_not_declined hDeclined]
      exact ha.trans (List.prefix_append xs ys)
  | true =>
      rw [andThen_of_declined hDeclined, handlers, List.map_append, ← hAll hDeclined]
      exact (List.prefix_append_right_inj a.handlers).mpr hf

end Account

namespace Handler

theorem accountOf_append (xs ys : List Handler) (w : World σ) :
    accountOf client serve i (xs ++ ys) w =
      (accountOf client serve i xs w).andThen (accountOf client serve i ys) := by
  induction xs generalizing w with
  | nil => rfl
  | cons x rest ih =>
      rw [List.cons_append, accountOf, accountOf, Account.andThen_assoc]
      congr 1
      funext u
      exact ih u

mutual

/-- Asking the handlers that a handler stands for is asking the handler. -/
theorem accountOf_leaves (x : Handler) (w : World σ) :
    accountOf client serve i x.leaves w = x.account client serve i w := by
  cases x with
  | chain handlers fallback =>
      rw [leaves, account]
      exact accountOf_leavesOf handlers w
  | _ => exact Account.andThen_nobody

theorem accountOf_leavesOf (xs : List Handler) (w : World σ) :
    accountOf client serve i (leavesOf xs) w = accountOf client serve i xs w := by
  cases xs with
  | nil => rfl
  | cons x rest =>
      rw [leavesOf, accountOf_append, accountOf, accountOf_leaves x w]
      congr 1
      funext u
      exact accountOf_leavesOf rest u

end

mutual

/-- The account ends as the program does. -/
theorem account_eq_handle (x : Handler) (w : World σ) :
    (x.account client serve i w).outcome = x.handle client serve i w := by
  cases x with
  | chain handlers fallback =>
      rw [account, handle]
      exact accountOf_eq_firstAnswer handlers w
  | _ => rfl

theorem accountOf_eq_firstAnswer (xs : List Handler) (w : World σ) :
    (accountOf client serve i xs w).outcome = firstAnswer client serve xs i w := by
  cases xs with
  | nil => rfl
  | cons x rest =>
      have hFirst := account_eq_handle x w
      rw [accountOf, firstAnswer]
      generalize x.account client serve i w = a at hFirst ⊢
      obtain ⟨asked, e | _ | v, left⟩ := a
      · exact (Run.bind_error hFirst.symm).symm
      · rw [Run.bind_ok hFirst.symm]
        exact accountOf_eq_firstAnswer rest left
      · rw [Run.bind_ok hFirst.symm]
        rfl

end

mutual

/-- The handlers that run are the first of those that a handler stands for, and all of them if they
decline. -/
theorem handlers_account (x : Handler) (w : World σ) :
    (x.account client serve i w).handlers <+: x.leaves ∧
      ((x.account client serve i w).declined = true →
        (x.account client serve i w).handlers = x.leaves) := by
  cases x with
  | chain handlers fallback =>
      rw [account, leaves]
      exact handlers_accountOf handlers w
  | _ => exact ⟨List.prefix_rfl, fun _ => rfl⟩

theorem handlers_accountOf (xs : List Handler) (w : World σ) :
    (accountOf client serve i xs w).handlers <+: leavesOf xs ∧
      ((accountOf client serve i xs w).declined = true →
        (accountOf client serve i xs w).handlers = leavesOf xs) := by
  cases xs with
  | nil => exact ⟨List.prefix_rfl, fun _ => rfl⟩
  | cons x rest =>
      obtain ⟨hFirst, hAll⟩ := handlers_account x w
      rw [accountOf, leavesOf]
      generalize x.account client serve i w = a at hFirst hAll ⊢
      obtain ⟨hRest, hAllRest⟩ := handlers_accountOf rest a.left
      refine ⟨Account.handlers_andThen_prefix hFirst hAll hRest, fun hDeclined => ?_⟩
      cases ha : a.declined with
      | false =>
          rw [Account.andThen_of_not_declined ha, ha] at hDeclined
          cases hDeclined
      | true =>
          rw [Account.andThen_of_declined ha] at hDeclined ⊢
          rw [Account.handlers, List.map_append]
          exact congrArg₂ _ (hAll ha) (hAllRest hDeclined)

end

mutual

/-- What a handler stands for are no chains. -/
theorem not_isChain_of_mem_leaves (x : Handler) : ∀ y ∈ x.leaves, y.isChain = false := by
  cases x with
  | chain handlers fallback =>
      rw [leaves]
      exact not_isChain_of_mem_leavesOf handlers
  | _ =>
      intro y hy
      rw [List.mem_singleton.mp hy]
      rfl

theorem not_isChain_of_mem_leavesOf (xs : List Handler) :
    ∀ y ∈ leavesOf xs, y.isChain = false := by
  cases xs with
  | nil => exact fun y hy => absurd hy List.not_mem_nil
  | cons x rest =>
      intro y hy
      rw [leavesOf] at hy
      rcases List.mem_append.mp hy with hFirst | hRest
      · exact not_isChain_of_mem_leaves x y hFirst
      · exact not_isChain_of_mem_leavesOf rest y hRest

end

end Handler

namespace Chain

/-- The account of a chain ends as the program does. -/
theorem account_eq_resolve (k : Chain) (w : World σ) :
    (k.account client serve i w).outcome = k.resolve client serve i w := by
  have hHandlers : (Handler.accountOf client serve i k.handlers w).outcome = _ :=
    Handler.accountOf_eq_firstAnswer k.handlers w
  rw [account, resolve]
  generalize Handler.accountOf client serve i k.handlers w = a at hHandlers ⊢
  obtain ⟨asked, e | _ | v, left⟩ := a
  · exact (Run.bind_error hHandlers.symm).symm
  · have hLast : (k.fallback.account client serve i left).outcome = _ :=
      Handler.account_eq_handle k.fallback left
    rw [Run.bind_ok hHandlers.symm, Account.andThen_of_declined rfl]
    dsimp only
    generalize k.fallback.account client serve i left = b at hLast ⊢
    obtain ⟨last, e | _ | v, after⟩ := b
    · exact (Run.bind_error hLast.symm).symm
    · rw [Run.bind_ok hLast.symm]
      rfl
    · rw [Run.bind_ok hLast.symm]
      rfl
  · rw [Run.bind_ok hHandlers.symm]
    rfl

/-- Resolving an invocation by chains inside chains, at any depth, is resolving it by the flat
chain: the same handlers run in the same order, each in the same world, and it ends in the same way
and leaves the same world. The flat chain holds no chains, so the handlers that run are its handlers
in order, perhaps not all of them, and after all of them its fallback. The fallback of a chain that
stands in for a handler is not among them. -/
theorem resolve_flat (k : Chain) (i : Invocation) (w : World σ) :
    k.flat.resolve client serve i w = k.resolve client serve i w ∧
    k.flat.account client serve i w = k.account client serve i w ∧
    (k.account client serve i w).outcome = k.resolve client serve i w ∧
    (∀ x ∈ k.flat.handlers, x.isChain = false) ∧
    (k.account client serve i w).handlers <+: k.flat.handlers ++ k.fallback.leaves := by
  have hAccount : k.flat.account client serve i w = k.account client serve i w := by
    rw [account, account, flat, Handler.accountOf_leavesOf]
  refine ⟨?_, hAccount, k.account_eq_resolve w, Handler.not_isChain_of_mem_leavesOf _, ?_⟩
  · rw [← account_eq_resolve, ← account_eq_resolve, hAccount]
  · obtain ⟨hFirst, hAll⟩ := Handler.handlers_accountOf k.handlers w
    exact Account.handlers_andThen_prefix hFirst hAll (Handler.handlers_account _ _).1

end Chain

end Metaobject
