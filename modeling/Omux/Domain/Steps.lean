import Omux.Library.Run
import Omux.Domain.Restore

/-!
# Runs of the domain

A run is any finite sequence of public operations.  A refused operation leaves
the state as it was.
-/

namespace Omux.Domain

open Library
open Native (NativeRef)

inductive Op where
  | connectSource (source : Source)
  | detachSource (id : Bytes)
  | disconnectSource (id : Bytes)
  | enroll (input : Enrollment) (now : Int)
  | addGrant (input : Grant)
  | reconcile (input : Reconciliation)
  | observe (input : Observation)
  | observeBatch (input : List Observation)
  | pruneObservations (now : Int)
  | bind (input : Binding)
  | releaseBinding (id : Bytes)
  | releaseBindingExact (id : Bytes) (ref : NativeRef)
  | beginLease (input : Lease) (now : Int)
  | completeLease (id : Bytes)
  | pause (accountId : Bytes) (paused : Bool)
  | drain (accountId : Bytes)
  | forget (accountId : Bytes)
  | permitReenrollment (identity : Identity) (sourceId : Bytes) (now : Int)
  | putJob (input : Job)
  | reopenJob (input : Job)

namespace State

def attempt (s : State) : Op -> Result State
  | .connectSource source => (s.connectSource source).map Prod.fst
  | .detachSource id => s.detachSource id
  | .disconnectSource id => s.disconnectSource id
  | .enroll input now => (s.enroll input now).map Prod.fst
  | .addGrant input => (s.addGrant input).map Prod.fst
  | .reconcile input => s.reconcile input
  | .observe input => s.observe input
  | .observeBatch input => s.observeBatch input
  | .pruneObservations now => .ok (s.pruneObservations now).fst
  | .bind input => (s.bind input).map Prod.fst
  | .releaseBinding id => s.releaseBinding id
  | .releaseBindingExact id ref => s.releaseBindingExact id ref
  | .beginLease input now => (s.beginLease input now).map Prod.fst
  | .completeLease id => s.completeLease id
  | .pause accountId paused => s.pause accountId paused
  | .drain accountId => s.drain accountId
  | .forget accountId => s.forget accountId
  | .permitReenrollment identity sourceId now => s.permitReenrollment identity sourceId now
  | .putJob input => (s.putJob input).map Prod.fst
  | .reopenJob input => (s.reopenJob input).map Prod.fst

def step (s : State) (op : Op) : State :=
  match s.attempt op with
  | .ok next => next
  | .error _ => s

def Reachable (s : State) : Prop :=
  Library.Reachable step State.init s

theorem step_invariant {P : State -> Prop}
    (hatt : forall s op next, P s -> s.attempt op = .ok next -> P next)
    (s : State) (op : Op) (hs : P s) : P (s.step op) := by
  unfold step
  cases h : s.attempt op with
  | ok next => exact hatt s op next hs h
  | error => exact hs

end State

end Omux.Domain
