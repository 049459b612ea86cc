import Mathlib.Logic.Function.Basic
import RosCanopen.Lib.OneShot
import RosCanopen.Ros2Control.Proxy

/-!
# One-shots behind a pair of doubles

The services of the controllers and the write of the hardware meet in pairs of doubles: a
command that is anything but NaN pends, a feedback that is anything but NaN is there.
`Shown` says that the doubles of a family of pairs, and the place where the write is, show
one-shots, and has a rule for each access.
-/

namespace RosCanopen.Ros2Control

open Lib Cia402
open CanopenNodeData (ofBool)

/-- `static_cast<bool>` of a double. -/
def toBool (x : Double) : Bool := x ≠ .fin 0

@[simp] theorem isNan_ofBool (b : Bool) : isNan (ofBool b) = false := rfl

@[simp] theorem toBool_ofBool (b : Bool) : toBool (ofBool b) = b := by
  cases b <;> decide

/-- A pair of doubles and the server show a one-shot. -/
structure ShowsOneShot (ons fbk : Double) (server : Option (Option Bool)) (o : OneShot Bool) :
    Prop where
  pending : isNan ons = !o.pending
  reply : fbk = o.reply.elim .nan ofBool
  served : server = o.served

/-- The pairs and the server show the one-shots. -/
def Shown {κ : Type} [DecidableEq κ] (ons fbk : κ → Double) (server : Server κ Bool)
    (o : κ → OneShot Bool) : Prop :=
  ∀ k, ShowsOneShot (ons k) (fbk k) (server.servedOf k) (o k)

namespace Shown
variable {κ : Type} [DecidableEq κ] {ons fbk : κ → Double} {server next : Server κ Bool}
  {o : κ → OneShot Bool} {k : κ} {r : Bool}

/-- One pair changes; the server turns to it or from it. -/
theorem update (hs : Shown ons fbk server o) {x y : Double} {q : OneShot Bool}
    (hk : ShowsOneShot x y (next.servedOf k) q)
    (hserver : ∀ k', k' ≠ k → next.servedOf k' = server.servedOf k') :
    Shown (Function.update ons k x) (Function.update fbk k y) next (Function.update o k q) := by
  intro k'
  by_cases heq : k' = k
  · subst heq
    simpa using hk
  · have hold := hs k'
    rw [← hserver k' heq] at hold
    simpa [heq] using hold

theorem ask (hs : Shown ons fbk server o) (hk : o k = .rest) {x : Double}
    (hx : isNan x = false) :
    Shown (Function.update ons k x) fbk server (Function.update o k .asked) := by
  have hold := hs k
  rw [hk] at hold
  have hnew : ShowsOneShot x (fbk k) (server.servedOf k) .asked := ⟨hx, hold.reply, hold.served⟩
  simpa using hs.update hnew fun _ _ => rfl

/-- The server takes the command, and goes on when there is none. -/
theorem take (hs : Shown ons fbk (.take k) o) (hnext : ∀ k', next.servedOf k' = none) :
    Shown (Function.update ons k .nan) fbk (if isNan (ons k) then next else .run k)
      (Function.update o k (o k).take) := by
  have hold := hs k
  cases hpending : (o k).pending with
  | true =>
      have hasked := OneShot.eq_asked hpending
      rw [hasked] at hold ⊢
      have hnan : isNan (ons k) = false := hold.pending
      have hnew : ShowsOneShot .nan (fbk k) ((Server.run k : Server κ Bool).servedOf k) .taken :=
        ⟨rfl, hold.reply, Server.servedOf_run_self⟩
      simpa [hnan, OneShot.take] using hs.update hnew fun k' hk' => Server.servedOf_run_of_ne hk'
  | false =>
      have hnan : isNan (ons k) = true := by rw [hold.pending, hpending, Bool.not_false]
      have htake : (o k).take = o k := by
        cases ho : o k <;> simp_all [OneShot.take, OneShot.pending]
      have hnew : ShowsOneShot .nan (fbk k) (next.servedOf k) (o k) :=
        ⟨by simp [hpending, isNan], hold.reply, (hnext k).trans hold.served⟩
      simpa [hnan, htake] using hs.update hnew fun k' _ => hnext k'

theorem taken (hs : Shown ons fbk (.run k) o) : o k = .taken :=
  OneShot.eq_taken ((hs k).served.symm.trans Server.servedOf_run_self)

theorem ran (hs : Shown ons fbk (.store k r) o) : o k = .ran r :=
  OneShot.eq_ran ((hs k).served.symm.trans Server.servedOf_store_self)

/-- The server has the result. -/
theorem run (hs : Shown ons fbk (.run k) o) (r : Bool) :
    Shown ons fbk (.store k r) (Function.update o k (.ran r)) := by
  have hold := hs k
  rw [hs.taken] at hold
  have hnew : ShowsOneShot (ons k) (fbk k) ((Server.store k r).servedOf k) (.ran r) :=
    ⟨hold.pending, hold.reply, Server.servedOf_store_self⟩
  have hother : ∀ k', k' ≠ k →
      (Server.store k r).servedOf k' = (Server.run k : Server κ Bool).servedOf k' :=
    fun k' hk' => (Server.servedOf_store_of_ne hk').trans (Server.servedOf_run_of_ne hk').symm
  simpa using hs.update hnew hother

/-- The server gives up, and there will be no reply. -/
theorem abort (hs : Shown ons fbk (.run k) o) (hnext : ∀ k', next.servedOf k' = none) :
    Shown ons fbk next (Function.update o k .rest) := by
  have hold := hs k
  rw [hs.taken] at hold
  have hnew : ShowsOneShot (ons k) (fbk k) (next.servedOf k) .rest :=
    ⟨hold.pending, hold.reply, hnext k⟩
  simpa using hs.update hnew
    fun k' hk' => (hnext k').trans (Server.servedOf_run_of_ne hk').symm

/-- The server stores the result and goes on. -/
theorem store (hs : Shown ons fbk (.store k r) o) (hnext : ∀ k', next.servedOf k' = none) :
    Shown ons (Function.update fbk k (ofBool r)) next (Function.update o k (.answered r)) := by
  have hold := hs k
  rw [hs.ran] at hold
  have hnew : ShowsOneShot (ons k) (ofBool r) (next.servedOf k) (.answered r) :=
    ⟨hold.pending, rfl, hnext k⟩
  simpa using hs.update hnew
    fun k' hk' => (hnext k').trans (Server.servedOf_store_of_ne hk').symm

/-- The reply is cleared. -/
theorem clear (hs : Shown ons fbk server o) :
    Shown ons (Function.update fbk k .nan) server (Function.update o k (o k).clear) := by
  have hold := hs k
  have hnew : ShowsOneShot (ons k) .nan (server.servedOf k) (o k).clear := by
    obtain ⟨hpending, -, hserved⟩ := hold
    cases ho : o k <;> rw [ho] at hpending hserved <;> exact ⟨hpending, rfl, hserved⟩
  simpa using hs.update hnew fun _ _ => rfl

/-- The command is taken back. -/
theorem withdraw (hs : Shown ons fbk server o) :
    Shown (Function.update ons k .nan) fbk server (Function.update o k (o k).withdraw) := by
  have hold := hs k
  have hnew : ShowsOneShot .nan (fbk k) (server.servedOf k) (o k).withdraw := by
    obtain ⟨hpending, hreply, hserved⟩ := hold
    cases ho : o k <;> rw [ho] at hreply hserved <;> exact ⟨rfl, hreply, hserved⟩
  simpa using hs.update hnew fun _ _ => rfl

/-- A feedback that is there is the reply. -/
theorem answered (hs : Shown ons fbk server o) (hk : isNan (fbk k) = false) :
    ∃ r, o k = .answered r ∧ fbk k = ofBool r := by
  have hreply := (hs k).reply
  cases ho : o k with
  | answered r => exact ⟨r, rfl, by rw [hreply, ho]; rfl⟩
  | rest => simp [hreply, ho, OneShot.reply, isNan] at hk
  | asked => simp [hreply, ho, OneShot.reply, isNan] at hk
  | taken => simp [hreply, ho, OneShot.reply, isNan] at hk
  | ran r => simp [hreply, ho, OneShot.reply, isNan] at hk

end Shown

end RosCanopen.Ros2Control
