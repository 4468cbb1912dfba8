import Mathlib.Algebra.BigOperators.Group.List.Basic
import Mathlib.Algebra.Ring.Nat
import PinnedPool.Proofs.Pool.Construction

/-! # Every step of a pool is paid for

A pool has a potential, which each step of a thread uses up: a worker that is not over, a task in the
queue and a call in progress count for the steps that are still to come of them. A worker that is
woken gets a step more, and whoever wakes it pays for that as well. So only a call from outside, or a
wakeup without a signal, adds to the potential.
-/
namespace PinnedPool

variable {J V : Type}

def Worker.isRunning : Worker J → Bool
  | running _ _ => true
  | _ => false

/-- What a worker counts for. -/
def Worker.toil : Worker J → Nat
  | starting | running _ _ => 3
  | ready => 2
  | parked => 1
  | left | killed _ => 0

theorem Worker.toil_eq (s : Worker J) : s.toil = s.legs + 2 * s.isRunning.toNat := by
  cases s <;> rfl

/-- What a call in a pool of `n` workers counts for. -/
def Call.price (n : Nat) : Call J → Nat
  | append _ _ => 6
  | notify _ => 3
  | await | parked => 0
  | build => 2 * n + 7
  | raise _ => 2 * n + 5
  | wake _ => 2 * n + 4
  | enter => n + 3
  | join _ next => n - next + 2

/-- What is left over for the caller when a call returns. -/
def Reply.change (n : Nat) : Reply → Nat
  | built => 2 * n + 6
  | accepted _ => 1
  | notBuilt _ | stopped | done | unwound _ => 0

namespace Pool

/-- Leaving out the entries of a key takes away one summand at most, the one that is looked up. -/
theorem sum_filter_ne {K A : Type} [DecidableEq K] (g : A → Nat) {l : List (K × A)}
    (hl : (l.map Prod.fst).Nodup) (t : K) :
    ((l.filter (·.1 ≠ t)).map fun x => g x.2).sum + ((l.lookup t).map g).getD 0 =
      (l.map fun x => g x.2).sum := by
  induction l with
  | nil => rfl
  | cons x l ih =>
    obtain ⟨hx,hl⟩ := List.nodup_cons.mp hl
    have ih := ih hl
    rw [lookup_cons_ite]
    by_cases ht : x.1 = t
    · have hn : l.filter (·.1 ≠ t) = l := by
        refine List.filter_eq_self.mpr fun y hy => ?_
        have hne : y.1 ≠ t := fun h => hx (List.mem_map.mpr ⟨y,hy,h.trans ht.symm⟩)
        simpa using hne
      rw [List.filter_cons_of_neg (by simpa using ht), hn, if_pos ht.symm, List.map_cons,
        List.sum_cons, Option.map_some, Option.getD_some, Nat.add_comm]
    · rw [List.filter_cons_of_pos (by simpa using ht), if_neg (Ne.symm ht), List.map_cons,
        List.map_cons, List.sum_cons, List.sum_cons]
      omega

/-- What the calls in progress count for. -/
def outlay (n : Nat) (p : Pool J V) : Nat := (p.calls.map fun x => x.2.price n).sum

/-- What the workers of a pool count for that is to have `n` of them. -/
def labor (n : Nat) (p : Pool J V) : Nat :=
  4 * (n - p.workers.length) + p.legs + 2 * p.workers.countP Worker.isRunning

def potential (n : Nat) (p : Pool J V) : Nat :=
  p.labor n + 2 * p.queue.tasks.length + p.outlay n

section Calls
variable {p : Pool J V} (n : Nat) {t : ThreadId}

theorem outlay_setCall (hd : p.Distinct) (c : Call J) :
    (p.setCall t c).outlay n + ((p.callOf? t).map (Call.price n)).getD 0 =
      p.outlay n + c.price n := by
  have hsum := sum_filter_ne (Call.price n) hd t
  unfold outlay setCall callOf?
  simp only [List.map_cons, List.sum_cons]
  omega

theorem outlay_endCall (hd : p.Distinct) :
    (p.endCall t).outlay n + ((p.callOf? t).map (Call.price n)).getD 0 = p.outlay n :=
  sum_filter_ne (Call.price n) hd t

theorem outlay_relieve (p : Pool J V) : p.relieve.outlay n = p.outlay n := by
  rcases p.relieve_eq_or with h | h
  · rw [h, outlay, wakeWaiters, List.map_map, outlay]
    refine congrArg List.sum (List.map_congr_left ?_)
    rintro ⟨u,c⟩ -
    cases c <;> rfl
  · rw [h]

end Calls

section Workers
variable {p : Pool J V} (n : Nat)

theorem labor_setWorker {w : Nat} {a : Worker J} (hw : p.workers[w]? = some a) (s : Worker J) :
    (p.setWorker w s).labor n + a.toil = p.labor n + s.toil := by
  have hlegs := legs_setWorker hw s
  have hrunning := countP_set_add Worker.isRunning (b := s) hw
  have hlen : (p.setWorker w s).workers.length = p.workers.length := List.length_set
  unfold labor
  rw [hlen, Worker.toil_eq, Worker.toil_eq]
  unfold setWorker at hlegs ⊢
  dsimp only at hrunning ⊢
  omega

theorem labor_start (hlt : p.workers.length < n) :
    labor n { p with workers := p.workers ++ [.starting] } + 1 = p.labor n := by
  have hlegs := p.legs_start
  unfold labor
  rw [hlegs, List.length_append, List.length_singleton, List.countP_append,
    countP_singleton_toNat]
  simp only [Worker.isRunning, Bool.toNat_false]
  omega

theorem labor_wakeWorkers_le (p : Pool J V) :
    p.wakeWorkers.labor n ≤ p.labor n + p.workers.length := by
  have hlegs := p.legs_wakeWorkers_le
  have hrunning : p.wakeWorkers.workers.countP Worker.isRunning =
      p.workers.countP Worker.isRunning := by
    rw [wakeWorkers, List.countP_map]
    exact List.countP_congr fun s _ => by cases s <;> simp [Worker.wake, Worker.isRunning]
  have hlen : p.wakeWorkers.workers.length = p.workers.length := List.length_map ..
  unfold labor
  rw [hrunning, hlen]
  omega

end Workers

section Parts
variable {p : Pool J V} (n : Nat)

theorem potential_setCall (hd : p.Distinct) {t : ThreadId} {c : Call J} (hc : p.callOf? t = some c)
    (c' : Call J) : (p.setCall t c').potential n + c.price n = p.potential n + c'.price n := by
  have hsum := outlay_setCall n hd (t := t) c'
  rw [hc, Option.map_some, Option.getD_some] at hsum
  have hkept : (p.setCall t c').potential n = p.labor n + 2 * p.queue.tasks.length +
      (p.setCall t c').outlay n := rfl
  rw [hkept, potential]
  omega

theorem potential_call (hd : p.Distinct) {t : ThreadId} (hc : p.callOf? t = none) (c : Call J) :
    (p.setCall t c).potential n = p.potential n + c.price n := by
  have hsum := outlay_setCall n hd (t := t) c
  rw [hc, Option.map_none, Option.getD_none, Nat.add_zero] at hsum
  have hkept : (p.setCall t c).potential n = p.labor n + 2 * p.queue.tasks.length +
      (p.setCall t c).outlay n := rfl
  rw [hkept, hsum, potential]
  omega

theorem potential_endCall (hd : p.Distinct) {t : ThreadId} {c : Call J}
    (hc : p.callOf? t = some c) : (p.endCall t).potential n + c.price n = p.potential n := by
  have hsum := outlay_endCall n hd (t := t)
  rw [hc, Option.map_some, Option.getD_some] at hsum
  have hkept : (p.endCall t).potential n = p.labor n + 2 * p.queue.tasks.length +
      (p.endCall t).outlay n := rfl
  rw [hkept, potential]
  omega

theorem potential_setWorker {w : Nat} {a : Worker J} (hw : p.workers[w]? = some a)
    (s : Worker J) : (p.setWorker w s).potential n + a.toil = p.potential n + s.toil := by
  have hlabor := labor_setWorker n hw s
  have hkept : (p.setWorker w s).potential n = (p.setWorker w s).labor n +
      2 * p.queue.tasks.length + p.outlay n := rfl
  rw [hkept, potential]
  omega

theorem potential_start (hlt : p.workers.length < n) :
    potential n { p with workers := p.workers ++ [.starting] } + 1 = p.potential n := by
  have hlabor := labor_start n hlt
  have hkept : potential n { p with workers := p.workers ++ [.starting] } =
      labor n { p with workers := p.workers ++ [.starting] } + 2 * p.queue.tasks.length +
        p.outlay n := rfl
  rw [hkept, potential]
  omega

theorem potential_wakeWorkers_le (p : Pool J V) :
    p.wakeWorkers.potential n ≤ p.potential n + p.workers.length := by
  have hlabor := labor_wakeWorkers_le n p
  have hkept : p.wakeWorkers.potential n = p.wakeWorkers.labor n + 2 * p.queue.tasks.length +
      p.outlay n := rfl
  rw [hkept, potential]
  omega

theorem potential_push (p : Pool J V) (job : J) (watched : Bool) :
    potential n { p with queue := p.queue.push job watched } = p.potential n + 2 := by
  have hkept : potential n { p with queue := p.queue.push job watched } = p.labor n +
      2 * (p.queue.push job watched).tasks.length + p.outlay n := rfl
  rw [hkept, Queue.tasks_push, List.length_append, List.length_singleton, potential]
  omega

theorem potential_pop {task : Task J} {ticket : Ticket} {rest : Queue J}
    (hp : p.queue.pop? = some (task, ticket, rest)) :
    potential n { p with queue := rest } + 2 = p.potential n := by
  have hkept : potential n { p with queue := rest } = p.labor n + 2 * rest.tasks.length +
      p.outlay n := rfl
  rw [hkept, potential, (Queue.pop?_eq_some hp).1, List.length_cons]
  omega

theorem potential_relieve (p : Pool J V) : p.relieve.potential n = p.potential n := by
  obtain ⟨calls,hp⟩ := p.relieve_pool
  have houtlay := p.outlay_relieve n
  have hkept : p.relieve.potential n = p.labor n + 2 * p.queue.tasks.length +
      p.relieve.outlay n := by
    rw [hp]
    rfl
  rw [hkept, houtlay, potential]

/-- What a step leads to counts for less than what it sets out from, with what is left over for the
caller. -/
def Effect.PaidBy (p : Pool J V) (n : Nat) (f : Effect J V) : Prop :=
  f.pool.potential n + f.reply.elim 0 (Reply.change n) + 1 ≤ p.potential n

section Paid
variable {n} {q : Pool J V} {t : ThreadId} {c : Call J} {lines : List Log.Line}

theorem paid_endWith (hd : q.Distinct) (hc : q.callOf? t = some c) {r : Reply}
    (hle : q.potential n + r.change n + 1 ≤ p.potential n + c.price n) :
    (endWith q t lines r).PaidBy p n := by
  have hend := potential_endCall n hd hc
  unfold Effect.PaidBy endWith
  dsimp only [Option.elim_some]
  omega

theorem paid_setCall (hd : q.Distinct) (hc : q.callOf? t = some c) {c' : Call J}
    (hle : q.potential n + c'.price n + 1 ≤ p.potential n + c.price n) :
    Effect.PaidBy p n ⟨q.setCall t c',lines,none⟩ := by
  have hset := potential_setCall n hd hc c'
  unfold Effect.PaidBy
  dsimp only [Option.elim_none]
  omega

theorem paid_setWorker {w : Nat} {a s : Worker J} (hw : q.workers[w]? = some a)
    (hle : q.potential n + s.toil + 1 ≤ p.potential n + a.toil) :
    Effect.PaidBy p n ⟨q.setWorker w s,lines,none⟩ := by
  have hset := potential_setWorker n hw s
  unfold Effect.PaidBy
  dsimp only [Option.elim_none]
  omega

theorem paid_relieve {r : Option Reply} (h : Effect.PaidBy p n ⟨q,lines,r⟩) :
    Effect.PaidBy p n ⟨q.relieve,lines,r⟩ := by
  unfold Effect.PaidBy
  dsimp only
  rw [potential_relieve]
  exact h

end Paid

end Parts

section Step
variable {p : Pool J V} {e : Event J V} {f : Effect J V} (h : p.step e = some f) (hd : p.Distinct)
include h hd

/-- A step of a thread uses up what it counts for, and what is left of its call when it returns. -/
theorem potential_step {n : Nat} (hn : p.threads = n) (hr : p.Reserved)
    (hlen : p.workers.length ≤ n) (he : e.isProgress = true)
    (hwaits : ∀ t c, p.callOf? t = some c → c.waits = false) : f.PaidBy p n := by
  have hsame : ∀ {q : Pool J V} {k l : Nat}, q.potential n = p.potential n → k + 1 ≤ l →
      q.potential n + k + 1 ≤ p.potential n + l := by
    intro q k l hq hkl
    omega
  have hwake := p.potential_wakeWorkers_le n
  cases transition h with
  | call | stir | stirWaiter | free => cases he
  | start hc hmore => exact Nat.le_of_eq (potential_start n (by omega))
  | startLast hc hlast =>
    have hs := hr.not_standing hc rfl
    unfold Standing at hs
    have hpot := potential_start n (p := p) (by omega)
    refine paid_endWith (q := { p with workers := p.workers ++ [.starting] }) hd hc ?_
    simp only [Reply.change, Call.price]
    omega
  | startRefused e hc =>
    refine paid_setCall hd hc (hsame rfl ?_)
    simp only [Call.price]
    omega
  | @signal t w seq hc hw =>
    have hset := potential_setWorker n hw .ready
    refine paid_endWith (q := p.setWorker w .ready) hd hc ?_
    simp only [Worker.toil] at hset
    simp only [Reply.change, Call.price]
    omega
  | signalNobody hc =>
    refine paid_endWith hd hc (hsame rfl ?_)
    simp [Reply.change, Call.price]
  | refuse hc =>
    refine paid_endWith hd hc (hsame rfl ?_)
    simp [Reply.change, Call.price]
  | @append t job watched hc =>
    have hpush := potential_push n p job watched
    refine paid_setCall (q := { p with queue := p.queue.push job watched }) hd hc ?_
    simp only [Call.price]
    omega
  | observe hc | wait hc => cases hwaits _ _ hc
  | raise hc =>
    refine paid_setCall (q := { p with stopping := true }) hd hc (hsame rfl ?_)
    simp only [Call.price]
    omega
  | wakeRefused hc | wakeOutside hc =>
    refine paid_setCall (q := p.wakeWorkers) hd hc ?_
    simp only [Call.price]
    omega
  | wakeOwn hc =>
    refine paid_endWith (q := p.wakeWorkers) hd hc ?_
    simp only [Call.price, Reply.change]
    omega
  | @enter t hc =>
    refine paid_setCall (q := { p with handles := .held t }) hd hc (hsame rfl ?_)
    simp only [Call.price]
    omega
  | enterGone hc =>
    refine paid_endWith hd hc (hsame rfl ?_)
    simp only [Call.price, Reply.change]
    omega
  | joinLeft hc hw | joinKilled hc hw =>
    have hlt := (List.getElem?_eq_some_iff.mp hw).1
    refine paid_setCall hd hc (hsame rfl ?_)
    simp only [Call.price]
    omega
  | destroy hc =>
    refine paid_endWith (q := { p with handles := .gone }) hd hc (hsame rfl ?_)
    simp only [Call.price, Reply.change]
    omega
  | joinBurst hc hw =>
    refine paid_endWith (q := { p with handles := .lost }) hd hc (hsame rfl ?_)
    simp only [Call.price, Reply.change]
    omega
  | giveUp hc | giveUpBurst hc =>
    refine paid_endWith hd hc (hsame rfl ?_)
    simp only [Call.price, Reply.change]
    omega
  | pin hw | pinKilled _ hw | leave hw | park hw =>
    exact paid_setWorker hw (hsame rfl (by simp [Worker.toil]))
  | @take w task ticket rest hw hp =>
    have hpop := potential_pop n hp
    refine paid_relieve (paid_setWorker (q := { p with queue := rest }) hw ?_)
    simp only [Worker.toil]
    omega
  | @finish w task ticket e heard hw =>
    obtain ⟨slots,hf⟩ := p.finish_pool w task e heard
    have hpaid : Effect.PaidBy p n
        ⟨{ p with slots := slots }.setWorker w (after task e heard),[],none⟩ := by
      refine paid_setWorker (q := { p with slots := slots }) hw (hsame rfl ?_)
      unfold after
      split <;> simp [Worker.toil]
    unfold Effect.PaidBy
    rw [hf, finish_reply]
    exact hpaid

end Step

end Pool
end PinnedPool
