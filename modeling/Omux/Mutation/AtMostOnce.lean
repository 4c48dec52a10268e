import Omux.Mutation.Restore

/-!
# Executions are handed out once

Over any run of the mutation ledger an operation id is executed at most once.  From then
on its record answers, also after restarts.
-/

namespace Omux.Mutation

open Library List

namespace Ledger

variable {platform : Platform} {l next : Ledger}

/-!
## Following one record
-/

def Answered (record : Record) : Option Bytes -> Prop
  | some bytes => record.state = .completed ∧ record.result = bytes ∧
      record.resultLen = bytes.length
  | none => record.state ≠ .completed

/-- The bytes that the operation completes the record with. -/
def completedBy (slot : Nat) (l : Ledger) : Op -> Option Bytes
  | .complete place bytes =>
    match l.complete place bytes with
    | .ok _ => if place = slot then some bytes else none
    | .error _ => none
  | _ => none

/-- The bytes that the record is completed with along a run. -/
def completion (platform : Platform) (slot : Nat) : Ledger -> List Op -> Option Bytes
  | _, [] => none
  | l, op :: rest => (completedBy slot l op).or (completion platform slot (l.step platform op) rest)

/-- What `begin` answers to the intent of an executed operation. -/
def reply : Option Bytes -> Begin
  | some bytes => .replay bytes
  | none => .indeterminate

variable {record old new : Record} {slot i revision currentRevision : Nat} {id method : Bytes}
  {fingerprint : Digest} {kind : Kind} {op : Op} {fate : Option Bytes}

theorem answer_of_answered (h : Answered record fate) : answer record = reply fate := by
  cases fate with
  | none =>
    have hstate : record.state ≠ .completed := h
    cases hcase : record.state with
    | completed => exact absurd hcase hstate
    | started | indeterminate => simp [answer, hcase, reply]
  | some =>
    rcases h with ⟨hstate, hresult, hlen⟩
    simp [answer, hstate, hresult, hlen, reply]

theorem answered_of_same (hstate : new.state = old.state) (hresult : new.result = old.result)
    (hlen : new.resultLen = old.resultLen) (h : Answered old fate) : Answered new fate := by
  cases fate with
  | none =>
    show new.state ≠ .completed
    rw [hstate]
    exact h
  | some =>
    rcases h with ⟨hold, hbytes, hlength⟩
    exact ⟨by rw [hstate, hold], by rw [hresult, hbytes], by rw [hlen, hlength]⟩

/-- The later value of a record and what it knows after the operation. -/
structure Follows (slot : Nat) (l : Ledger) (op : Op) (old new : Record) : Prop where
  later : Later old new
  answered : forall fate, Answered old fate ->
    Answered new (fate.or (completedBy slot l op))

theorem follows_refl (record : Record) (hop : completedBy slot l op = none) :
    Follows slot l op record record := by
  refine ⟨later_refl record, ?_⟩
  intro _ h
  rw [hop, Option.or_none]
  exact h

/-- The record of the slot is still there, with a later value. -/
def Continues (slot : Nat) (l : Ledger) (op : Op) (record : Record) (next : Ledger) : Prop :=
  exists new, next.records[slot]? = some new ∧ Follows slot l op record new

section

variable (hget : l.records[slot]? = some record)
include hget

theorem continues_updates (h : Updates platform l i old new next)
    (hhere : i = slot -> forall fate, Answered old fate ->
      Answered new (fate.or (completedBy slot l op)))
    (hthere : i ≠ slot -> completedBy slot l op = none) : Continues slot l op record next := by
  rw [h.result]
  by_cases hslot : i = slot
  · have hentry := h.entry
    rw [hslot, hget] at hentry
    cases hentry
    refine ⟨new, ?_, h.later, hhere hslot⟩
    rw [hslot, getElem?_set_self']
    simp [hget]
  · refine ⟨record, ?_, follows_refl record (hthere hslot)⟩
    rw [getElem?_set_ne hslot, hget]

theorem continues_withSlot {measured : Measured} {written : Slot}
    (hop : completedBy slot l op = none)
    (h : Updates platform l i old (old.withSlot measured written) next) :
    Continues slot l op record next := by
  apply continues_updates hget h _ (fun _ => hop)
  intro _ _ hfate
  rw [hop, Option.or_none]
  cases measured with
  | lifecycle | nativeRemoval => exact answered_of_same rfl rfl rfl hfate

theorem continues_complete {bytes : Bytes} (hl : Valid platform l)
    (h : l.complete i bytes = .ok next) : Continues slot l (.complete i bytes) record next := by
  rcases complete_updates hl h with ⟨_, hstate, hupd⟩
  apply continues_updates hget hupd
  · intro hi fate hfate
    have hdone : completedBy slot l (.complete i bytes) = some bytes := by
      simp only [completedBy, h]
      exact if_pos hi
    cases fate with
    | some => cases hstate.symm.trans hfate.left
    | none =>
      rw [hdone]
      exact ⟨rfl, rfl, rfl⟩
  · intro hi
    simp [completedBy, h, hi]

theorem continues_markIndeterminate (hl : Valid platform l) (h : l.markIndeterminate i = .ok next) :
    Continues slot l (.markIndeterminate i) record next := by
  rcases markIndeterminate_updates hl h with ⟨_, hstate, hupd⟩
  apply continues_updates hget hupd _ (fun _ => rfl)
  intro _ fate hfate
  cases fate with
  | some => cases hstate.symm.trans hfate.left
  | none =>
    intro hdone
    cases hdone

theorem continues_recover (hop : completedBy slot l op = none) :
    Continues slot l op record l.recoverAfterRestart := by
  refine ⟨recoverRecord record, ?_, later_recover record, ?_⟩
  · show (l.records.map recoverRecord)[slot]? = some (recoverRecord record)
    simp [hget]
  · intro fate hfate
    rw [hop, Option.or_none]
    by_cases hstate : record.state = .started
    · cases fate with
      | some => cases hstate.symm.trans hfate.left
      | none =>
        show (recoverRecord record).state ≠ .completed
        simp [recoverRecord, hstate]
    · rcases (later_recover record).settled hstate with ⟨hsame, hresult, hlen⟩
      exact answered_of_same hsame hresult hlen hfate

theorem continues_attempt (hl : Valid platform l) (h : l.attempt platform op = .ok next) :
    Continues slot l op record next := by
  cases op with
  | begin =>
    rcases map_fst_eq_ok.mp h with ⟨_, hbegin⟩
    rcases begin_inv hbegin with ⟨_, _, hknown | hnew⟩
    · rcases hknown with ⟨_, _, _, hnext, _⟩
      rw [hnext]
      exact ⟨record, hget, follows_refl record rfl⟩
    · rcases hnew.right.right.reserves with ⟨_, _, _, hnext⟩
      rw [hnext]
      refine ⟨record, ?_, follows_refl record rfl⟩
      exact getElem?_append_left (List.getElem?_eq_some_iff.mp hget).1 ▸ hget
  | complete => exact continues_complete hget hl h
  | markIndeterminate => exact continues_markIndeterminate hget hl h
  | tryReserveWitness =>
    rcases map_fst_eq_ok.mp h with ⟨_, hresv⟩
    rcases tryReserveWitness_updates hl hresv with rfl | hchanged
    · exact ⟨record, hget, follows_refl record rfl⟩
    · rcases hchanged with ⟨_, _, hupd⟩
      exact continues_withSlot hget rfl hupd
  | abandonWitness =>
    rcases abandonWitness_updates hl h with ⟨_, _, hupd⟩
    exact continues_withSlot hget rfl hupd
  | setWitnessOnce =>
    rcases setWitnessOnce_updates hl h with ⟨_, _, hupd⟩
    exact continues_withSlot hget rfl hupd
  | restart =>
    rw [restart_inv hl h]
    exact continues_recover hget rfl

theorem continues_step (op : Op) (hl : Valid platform l) :
    Continues slot l op record (l.step platform op) := by
  unfold step
  cases h : l.attempt platform op with
  | ok => exact continues_attempt hget hl h
  | error err =>
    refine ⟨record, hget, follows_refl record ?_⟩
    cases op with
    | complete i bytes =>
      have herror : l.complete i bytes = .error err := h
      simp [completedBy, herror]
    | _ => rfl

end

theorem follows_run (hl : Valid platform l) (hget : l.records[slot]? = some record)
    (hfate : Answered record fate) (ops : List Op) :
    exists new, (run (step platform) l ops).records[slot]? = some new ∧
      Later record new ∧ Answered new (fate.or (completion platform slot l ops)) := by
  induction ops generalizing l record fate with
  | nil =>
    refine ⟨record, hget, later_refl record, ?_⟩
    rw [completion, Option.or_none]
    exact hfate
  | cons op _ ih =>
    rcases continues_step hget op hl with ⟨_, hmiddle, hfol⟩
    rcases ih (valid_step op hl) hmiddle (hfol.answered fate hfate) with
      ⟨new, hnew, hlater, hanswered⟩
    refine ⟨new, hnew, later_trans hfol.later hlater, ?_⟩
    rw [completion, <- Option.or_assoc]
    exact hanswered

/-!
## Operation ids
-/

def executes (l : Ledger) : Op -> List Bytes
  | .begin id method fingerprint expectedRevision currentRevision kind =>
    match l.begin id method fingerprint expectedRevision currentRevision kind with
    | .ok (_, .execute _) => [id]
    | _ => []
  | _ => []

def executedFor (id : Bytes) (l : Ledger) (op : Op) : Nat :=
  (l.executes op).count id

def ids (l : Ledger) : List Bytes :=
  l.records.map Record.idBytes

theorem ids_updates (h : Updates platform l i old new next) : next.ids = l.ids := by
  rw [h.result]
  exact map_set_of_eq h.entry (idBytes_of_intent h.later.intent)

theorem answer_ne_execute (record : Record) (slot : Nat) : answer record ≠ .execute slot := by
  unfold answer
  cases record.state with
  | completed | started | indeterminate => simp

theorem ids_begin {expectedRevision : Option Nat} {outcome : Begin}
    (h : l.begin id method fingerprint expectedRevision currentRevision kind =
      .ok (next, outcome)) :
    next.ids = l.ids ++ l.executes
      (.begin id method fingerprint expectedRevision currentRevision kind) := by
  rcases begin_inv h with ⟨_, _, hknown | hnew⟩
  · rcases hknown with ⟨record, _, _, hnext, houtcome⟩
    have hnone : l.executes
        (.begin id method fingerprint expectedRevision currentRevision kind) = [] := by
      cases outcome with
      | execute slot => exact absurd houtcome.symm (answer_ne_execute record slot)
      | replay | indeterminate => simp [executes, h]
    rw [hnone, hnext, append_nil]
  · rcases hnew with ⟨_, houtcome, hstarts⟩
    rcases hstarts.reserves with ⟨_, _, _, hnext⟩
    have hone : l.executes
        (.begin id method fingerprint expectedRevision currentRevision kind) = [id] := by
      simp [executes, h, houtcome]
    rw [hone, hnext]
    show (l.records ++ [_]).map Record.idBytes = l.records.map Record.idBytes ++ [id]
    rw [map_append, map_cons, map_nil, newRecord_idBytes]

theorem ids_attempt (hl : Valid platform l) (h : l.attempt platform op = .ok next) :
    next.ids = l.ids ++ l.executes op := by
  have hkept : next.ids = l.ids -> next.ids = l.ids ++ [] := by
    intro hsame
    rw [hsame, append_nil]
  cases op with
  | begin =>
    rcases map_fst_eq_ok.mp h with ⟨_, hbegin⟩
    exact ids_begin hbegin
  | complete =>
    rcases complete_updates hl h with ⟨_, _, hupd⟩
    exact hkept (ids_updates hupd)
  | markIndeterminate =>
    rcases markIndeterminate_updates hl h with ⟨_, _, hupd⟩
    exact hkept (ids_updates hupd)
  | tryReserveWitness =>
    rcases map_fst_eq_ok.mp h with ⟨_, hresv⟩
    apply hkept
    rcases tryReserveWitness_updates hl hresv with hsame | hchanged
    · rw [hsame]
    · rcases hchanged with ⟨_, _, hupd⟩
      exact ids_updates hupd
  | abandonWitness =>
    rcases abandonWitness_updates hl h with ⟨_, _, hupd⟩
    exact hkept (ids_updates hupd)
  | setWitnessOnce =>
    rcases setWitnessOnce_updates hl h with ⟨_, _, hupd⟩
    exact hkept (ids_updates hupd)
  | restart =>
    apply hkept
    rw [restart_inv hl h]
    show (l.records.map recoverRecord).map Record.idBytes = _
    rw [map_map]
    rfl

theorem ids_step (op : Op) (hl : Valid platform l) :
    (l.step platform op).ids = l.ids ++ l.executes op := by
  unfold step
  cases h : l.attempt platform op with
  | ok => exact ids_attempt hl h
  | error =>
    have hnone : l.executes op = [] := by
      cases op with
      | begin id method fingerprint expectedRevision currentRevision kind =>
        cases hbegin : l.begin id method fingerprint expectedRevision currentRevision kind with
        | error _ => simp [executes, hbegin]
        | ok _ => simp [attempt, hbegin, Except.map] at h
      | _ => rfl
    rw [hnone, append_nil]

/-- The ledger holds as many records of an id as executions were handed out. -/
theorem count_ids_run (id : Bytes) (hl : Valid platform l) (ops : List Op) :
    (run (step platform) l ops).ids.count id =
      l.ids.count id + tally (step platform) (executedFor id) l ops := by
  apply measure_run (m := fun t => t.ids.count id) (fun _ op ht => valid_step op ht) ?_ hl
  intro t op ht
  rw [ids_step op ht, count_append]
  rfl

/-!
## Answers
-/

def RefusesBegin (platform : Platform) (l : Ledger) (id method : Bytes)
    (fingerprint : Digest) (expectedRevision : Option Nat) (currentRevision : Nat)
    (kind : Kind) : Prop :=
  (exists err, l.begin id method fingerprint expectedRevision currentRevision kind = .error err) ∧
  l.step platform
    (.begin id method fingerprint expectedRevision currentRevision kind) = l

theorem refusesBegin_of_not_ok {expectedRevision : Option Nat} (h : forall next outcome,
      l.begin id method fingerprint expectedRevision currentRevision kind ≠
        .ok (next, outcome)) :
    RefusesBegin platform l id method fingerprint expectedRevision currentRevision
      kind := by
  cases hbegin : l.begin id method fingerprint expectedRevision currentRevision kind with
  | ok pair => exact absurd hbegin (h pair.1 pair.2)
  | error err =>
    refine ⟨⟨err, hbegin⟩, ?_⟩
    simp [step, attempt, hbegin, Except.map]

theorem sameIntent_eq_true : sameIntent record method fingerprint revision kind = true ↔
      record.methodBytes = method ∧ record.fingerprint = fingerprint ∧
        record.expectedRevision = revision ∧ record.kind = kind := by
  simp [sameIntent, and_assoc]

/-- The record of an executed operation has its id and its whole intent. -/
theorem intent_of_later (h : Later (newRecord id method fingerprint revision kind) record) :
    record.idBytes = id ∧
      sameIntent record method fingerprint revision kind = true := by
  have hintent := h.intent
  refine ⟨by rw [idBytes_of_intent hintent, newRecord_idBytes], ?_⟩
  have hmethod : record.methodBytes = method := by
    have harray := congrArg Intent.method hintent
    have hlen := congrArg Intent.methodLen hintent
    simp only [Record.intent] at harray hlen
    have hsame : record.methodBytes =
        (newRecord id method fingerprint revision kind).methodBytes := by
      rw [Record.methodBytes, Record.methodBytes, harray, hlen]
    rw [hsame, newRecord_methodBytes]
  have hprint := congrArg Intent.fingerprint hintent
  have hrev := congrArg Intent.expectedRevision hintent
  have hkind := congrArg Intent.kind hintent
  exact sameIntent_eq_true.mpr ⟨hmethod, hprint, hrev, hkind⟩

theorem recordAt_of_getElem? (hl : Valid platform l) (hget : l.records[slot]? = some record)
    (hid : record.idBytes = id) : recordAt Record.idBytes l.records id = some record :=
  recordAt_of_mem hl.ids (mem_of_getElem? hget) hid

theorem begin_known (hl : Valid platform l) (hget : l.records[slot]? = some record)
    (hid : record.idBytes = id)
    (hsame : sameIntent record method fingerprint revision kind = true) (currentRevision : Nat) :
    l.begin id method fingerprint (some revision) currentRevision kind =
      .ok (l, answer record) := by
  have hrecord := hl.each record (mem_of_getElem? hget)
  have hvalidId := hrecord.id.right
  have hvalidMethod := hrecord.method.right
  rw [hid] at hvalidId
  rw [(sameIntent_eq_true.mp hsame).left] at hvalidMethod
  have hfound := recordAt_of_getElem? hl hget hid
  simp [begin, hvalidId, hvalidMethod, bind_ok, hfound, hsame]

theorem begin_new {bytes : Nat} (hid : validId id = true) (hmethod : validMethod method = true)
    (hunknown : recordAt Record.idBytes l.records id = none) (hroom : l.records.length < l.capacity)
    (hbytes : l.reservation (newRecord id method fingerprint revision kind) =
      .ok bytes) (hfits : bytes <= l.remainingSnapshotBytes) :
    l.begin id method fingerprint (some revision) revision kind = .ok ({ l with
        records := l.records ++ [newRecord id method fingerprint revision kind]
        reservedSnapshotBytes := l.reservedSnapshotBytes + bytes },
        .execute l.records.length) := by
  have hcap : (l.remainingCapacity == 0) = false := by
    rw [remainingCapacity, beq_eq_false_iff_ne]
    omega
  simp [begin, hid, hmethod, bind_ok, hunknown, hbytes, hcap, decide_eq_false (not_lt.mpr hfits)]

theorem begin_conflict (hl : Valid platform l) (hget : l.records[slot]? = some record)
    (hid : record.idBytes = id)
    (hsame : sameIntent record method fingerprint revision kind = true) {method' : Bytes}
    {fingerprint' : Digest} {expected' : Option Nat} {kind' : Kind} (currentRevision : Nat)
    (hother : (method', fingerprint', expected', kind') ≠
      (method, fingerprint, some revision, kind)) :
    RefusesBegin platform l id method' fingerprint' expected' currentRevision
      kind' := by
  have hfound := recordAt_of_getElem? hl hget hid
  apply refusesBegin_of_not_ok
  intro _ _ hbegin
  rcases begin_inv hbegin with ⟨_, hexp, hknown | hnew⟩
  · rcases hknown with ⟨_, hheld, hheldSame, _, _⟩
    rw [hfound] at hheld
    cases hheld
    rcases sameIntent_eq_true.mp hsame with ⟨hmethod, hprint, hrev, hkind⟩
    rcases sameIntent_eq_true.mp hheldSame with
      ⟨hmethod', hprint', hrev', hkind'⟩
    apply hother
    rw [hexp, <- hmethod, <- hmethod', <- hprint, <- hprint', <- hrev,
      <- hrev', <- hkind, <- hkind']
  · have hunknown := hnew.right.right.unknown
    rw [hfound] at hunknown
    cases hunknown

theorem begin_stale {expected : Option Nat} (hid : id ∉ l.ids)
    (hstale : expected ≠ some currentRevision) :
    RefusesBegin platform l id method fingerprint expected currentRevision kind := by
  apply refusesBegin_of_not_ok
  intro _ _ hbegin
  rcases begin_inv hbegin with ⟨_, rfl, hknown | hnew⟩
  · rcases hknown with ⟨_, hheld, _⟩
    rcases recordAt_eq_some hheld with ⟨hmem, rfl⟩
    apply hid
    exact mem_map_of_mem hmem
  · apply hstale
    rw [hnew.left]

/-!
## Whole runs
-/

theorem record_of_execution {expected : Option Nat} {started : Ledger} (hl : Valid platform l)
    (hbegin : l.begin id method fingerprint expected currentRevision kind =
      .ok (started, .execute slot)) (after : List Op) :
    exists revision record, expected = some revision ∧
      (run (step platform) started after).records[slot]? = some record ∧
      record.idBytes = id ∧
      sameIntent record method fingerprint revision kind = true ∧
      answer record = reply (completion platform slot started after) := by
  rcases begin_inv hbegin with ⟨revision, hexp, hknown | hnew⟩
  · rcases hknown with ⟨held, _, _, _, houtcome⟩
    exact absurd houtcome.symm (answer_ne_execute held slot)
  · rcases hnew with ⟨_, houtcome, hstarts⟩
    cases houtcome
    have hstart := valid_starts hl hstarts
    rcases hstarts.reserves with ⟨_, _, _, hnext⟩
    have hget : started.records[l.records.length]? =
        some (newRecord id method fingerprint revision kind) := by
      rw [hnext]
      exact getElem?_concat_length
    have hfresh : Answered (newRecord id method fingerprint revision kind) none := by nofun
    rcases follows_run hstart hget hfresh after with
      ⟨record, hrecord, hlater, hanswered⟩
    rcases intent_of_later hlater with ⟨hid, hsame⟩
    exact ⟨revision, record, hexp, hrecord, hid, hsame, answer_of_answered hanswered⟩

theorem state_settled (hl : Valid platform l) (hget : l.records[slot]? = some record)
    (hstate : record.state ≠ .started) (ops : List Op) :
    exists later, (run (step platform) l ops).records[slot]? = some later ∧
      later.state = record.state := by
  have hfate : exists fate, Answered record fate := by
    by_cases hdone : record.state = .completed
    · have hrecord := hl.each record (mem_of_getElem? hget)
      exact ⟨some record.result, hdone, rfl, hrecord.result.left⟩
    · exact ⟨none, hdone⟩
  rcases hfate with ⟨fate, hfate⟩
  rcases follows_run hl hget hfate ops with ⟨later, hlater, hlaterOf, _⟩
  exact ⟨later, hlater, (hlaterOf.settled hstate).left⟩

/-- Executions are handed out once and answered faithfully ever after. -/
theorem executed_once_and_replayed (platform : Platform) {capacity : Nat}
    {empty : Ledger} (hinit : init capacity = .ok empty) (ops : List Op) :
    (forall id, tally (step platform) (executedFor id) empty ops <= 1) ∧
    (forall before after id method fingerprint expected current kind slot started,
      ops = before ++ .begin id method fingerprint expected current kind :: after ->
      (run (step platform) empty before).begin id method fingerprint expected current kind =
        .ok (started, .execute slot) ->
      (forall current',
        (run (step platform) empty ops).begin id method fingerprint expected current' kind =
          .ok (run (step platform) empty ops,
            reply (completion platform slot started after))) ∧
      (forall method' fingerprint' expected' current' kind',
        (method', fingerprint', expected', kind') ≠ (method, fingerprint, expected, kind) ->
        RefusesBegin platform (run (step platform) empty ops) id method' fingerprint' expected'
          current' kind')) ∧
    (forall id method fingerprint expected current kind,
      tally (step platform) (executedFor id) empty ops = 0 -> expected ≠ some current ->
      RefusesBegin platform (run (step platform) empty ops) id method fingerprint expected
        current kind) ∧
    (forall (before after : List Op) (slot : Nat) (record : Record), ops = before ++ after ->
      (run (step platform) empty before).records[slot]? = some record ->
      record.state ≠ .started ->
      exists later : Record, (run (step platform) empty ops).records[slot]? = some later ∧
        later.state = record.state) ∧
    (forall revision, (run (step platform) empty ops).Covered revision ->
      fromSnapshotAtRevision platform (run (step platform) empty ops).snapshot revision =
        .ok (run (step platform) empty ops)) := by
  have hempty : Valid platform empty := valid_init hinit
  have hrun := valid_run hempty ops
  have hnone : empty.ids = [] := by
    rw [(init_inv hinit).right.right]
    rfl
  have hcount : forall id, (run (step platform) empty ops).ids.count id =
      tally (step platform) (executedFor id) empty ops := by
    intro id
    rw [count_ids_run id hempty ops, hnone, count_nil, Nat.zero_add]
  refine ⟨?_, ?_, ?_, ?_, ?_⟩
  · intro id
    rw [<- hcount id]
    exact nodup_iff_count_le_one.mp hrun.ids id
  · intro before after id method fingerprint expected current kind slot started hops hbegin
    have hbefore := valid_run hempty before
    have hstep : (run (step platform) empty before).step platform
        (.begin id method fingerprint expected current kind) = started := by
      simp [step, attempt, hbegin, Except.map]
    have hfinal : run (step platform) empty ops = run (step platform) started after := by
      rw [hops, run_append, run_cons, hstep]
    rcases record_of_execution hbefore hbegin after with
      ⟨revision, record, rfl, hget, hid, hsame, hanswer⟩
    rw [<- hfinal] at hget
    constructor
    · intro current'
      rw [begin_known hrun hget hid hsame current', hanswer]
    · intro method' fingerprint' expected' current' kind' hother
      exact begin_conflict hrun hget hid hsame current' hother
  · intro id method fingerprint expected current kind hnew hstale
    apply begin_stale ?_ hstale
    rw [<- count_eq_zero, hcount id, hnew]
  · intro before after slot record hops hget hstate
    rw [hops, run_append]
    exact state_settled (valid_run hempty before) hget hstate after
  · intro revision hcovered
    exact fromSnapshotAtRevision_of_valid hrun hcovered

def blindPlatform : Platform :=
  { sha256 := fun _ => Vector.replicate 32 1, parseJson := fun _ => none }

def emptyLedger : Ledger :=
  { capacity := 1
    witnessCeiling := maximumSerializedBytes .lifecycle
    nativeWitnessCeiling := maximumSerializedBytes .nativeRemoval }

def connectedRun : List Op :=
  [.begin (ascii "connect-1") (ascii "source.connect") (Vector.replicate 32 1)
      (some 7) 7 .external, .complete 0 (ascii "opaque"), .restart 8]

theorem replayed_after_connectedRun : init 1 = .ok emptyLedger ∧
      (run (step blindPlatform) emptyLedger connectedRun).begin (ascii "connect-1")
        (ascii "source.connect") (Vector.replicate 32 1) (some 7) 9 .external =
          .ok (run (step blindPlatform) emptyLedger connectedRun, .replay (ascii "opaque")) := by
  have hinit : init 1 = .ok emptyLedger := rfl
  have hid : validId (ascii "connect-1") = true := by decide
  have hmethod : validMethod (ascii "source.connect") = true := by decide
  have hnew := recordOk_new blindPlatform (Vector.replicate 32 1) 7 .external hid hmethod
  have hreserves := reservation_of_valid (valid_init hinit) hnew
  have hfits : maximumRecordSnapshotBytes <= emptyLedger.remainingSnapshotBytes := by decide
  have hbegin := begin_new hid hmethod rfl (by decide) hreserves
    ((recordBytes_new_le blindPlatform _ _ _ hid hmethod).trans hfits)
  rcases executed_once_and_replayed blindPlatform hinit connectedRun with
    ⟨_, hreplay, _⟩
  exact ⟨hinit, (hreplay [] _ _ _ _ _ _ _ 0 _ rfl hbegin).left 9⟩

/-- The partition always has room for what its records reserve. -/
theorem reservations_fit_partition (platform : Platform) {capacity : Nat} {empty : Ledger}
    (hinit : init capacity = .ok empty) (ops : List Op) :
    let l := run (step platform) empty ops
    l.records.length <= l.capacity ∧ (l.records.map Record.idBytes).Nodup ∧
      l.reservedSnapshotBytes = snapshotOverhead + (l.records.map recordBytes).sum ∧
      l.reservedSnapshotBytes <= maximumSnapshotBytes := by
  have hempty : Valid platform empty := valid_init hinit
  have hrun := valid_run hempty ops
  exact ⟨hrun.bounded, hrun.ids, hrun.reserved, hrun.fits⟩

theorem reservations_fit_after_connectedRun :
    (run (step blindPlatform) emptyLedger connectedRun).reservedSnapshotBytes <=
      maximumSnapshotBytes :=
  (reservations_fit_partition blindPlatform (rfl : init 1 = .ok emptyLedger)
    connectedRun).right.right.right

end Ledger

end Omux.Mutation
