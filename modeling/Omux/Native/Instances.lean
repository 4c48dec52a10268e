import Omux.Native.RemovalFence

/-!
# Thread instances

An attachment names an instance of a thread of its owner and a generation within that
instance.  The order in which attachments were admitted is the order of their rows.
-/

namespace Omux.Native

open Library List

namespace Ledger

def sameInstance (a b : Attachment) : Prop :=
  a.reference.ownerKey = b.reference.ownerKey ∧
    a.reference.threadInstanceGeneration = b.reference.threadInstanceGeneration

/-- An attachment behind those admitted before it: it is a newer generation of its
instance, and either the instance is known or it is newer than all of the owner. -/
structure Follows (before : List Attachment) (input : Attachment) : Prop where
  instances : forall old, old ∈ before -> sameInstance old input ->
    old.threadId = input.threadId ∧
    old.reference.attachmentGeneration < input.reference.attachmentGeneration
  newer : (exists old, old ∈ before ∧ sameInstance old input) ∨
    forall old, old ∈ before -> old.reference.ownerKey = input.reference.ownerKey ->
      old.reference.threadInstanceGeneration < input.reference.threadInstanceGeneration

def Ordered (log : List Attachment) : Prop :=
  forall before input after, log = before ++ input :: after -> Follows before input

theorem ordered_nil : Ordered [] := by
  intro _ _ _ hsplit
  exact absurd hsplit.symm (by simp)

variable {log : List Attachment} {key : OwnerKey} {threadId : Bytes} {input : Attachment}

theorem ordered_concat (h : Ordered log) (hinput : Follows log input) :
    Ordered (log ++ [input]) := by
  intro before x after hsplit
  rcases eq_nil_or_concat after with rfl | ⟨rest, _, rfl⟩
  · rcases append_inj' hsplit rfl with ⟨rfl, hx⟩
    cases hx
    exact hinput
  · rw [concat_eq_append, <- cons_append, <- append_assoc] at hsplit
    rcases append_inj' hsplit rfl with ⟨hlog, _⟩
    exact h before x rest hlog

theorem follows_of_identities {before before' : List Attachment} {input' : Attachment}
    (h : Follows before input) (hbefore : before.map identity = before'.map identity)
    (hinput : identity input = identity input') : Follows before' input' := by
  simp only [identity, Prod.mk.injEq] at hinput
  have hback : forall old', old' ∈ before' -> exists old, old ∈ before ∧
      old.reference = old'.reference ∧ old.threadId = old'.threadId := by
    intro old' hold'
    have hmem : identity old' ∈ before.map identity := by
      rw [hbefore]
      exact mem_map_of_mem hold'
    rcases mem_map.mp hmem with ⟨old, hold, hsame⟩
    simp only [identity, Prod.mk.injEq] at hsame
    exact ⟨old, hold, hsame.left, hsame.right.left⟩
  have hforth : forall old, old ∈ before -> exists old', old' ∈ before' ∧
      old.reference = old'.reference := by
    intro old hold
    have hmem : identity old ∈ before'.map identity := by
      rw [<- hbefore]
      exact mem_map_of_mem hold
    rcases mem_map.mp hmem with ⟨old', hold', hsame⟩
    simp only [identity, Prod.mk.injEq] at hsame
    exact ⟨old', hold', hsame.left.symm⟩
  constructor
  · intro old' hold' hinst
    rcases hback old' hold' with ⟨old, hold, href, hthread⟩
    rw [sameInstance, <- href, <- hinput.left] at hinst
    rw [<- href, <- hthread, <- hinput.left, <- hinput.right.left]
    exact h.instances old hold hinst
  · rcases h.newer with ⟨old, hold, hknown⟩ | hall
    · rcases hforth old hold with ⟨old', hold', href⟩
      refine Or.inl ⟨old', hold', ?_⟩
      rw [sameInstance, <- href, <- hinput.left]
      exact hknown
    · refine Or.inr ?_
      intro old' hold' howner
      rcases hback old' hold' with ⟨old, hold, href, _⟩
      rw [<- href, <- hinput.left] at howner ⊢
      exact hall old hold howner

theorem ordered_of_identities {log' : List Attachment} (h : Ordered log)
    (hsame : log.map identity = log'.map identity) : Ordered log' := by
  intro _ _ _ hsplit
  rw [hsplit, map_append] at hsame
  rcases map_eq_append_iff.mp hsame with ⟨before, _, hlog, hbefore, htail⟩
  rcases map_eq_cons_iff.mp htail with ⟨input, after, rfl, hinput, _⟩
  exact follows_of_identities (h before input after hlog) hbefore hinput

theorem follows_of_admitted {ledger : Ledger} (h : AttachmentAdmitted ledger input) :
    Follows ledger.attachments input := by
  constructor
  · intro old hold hinst
    exact h.instances old hold hinst.left hinst.right
  · exact h.newer

theorem ordered_step {ledger : Ledger} (h : Ordered ledger.attachments) (op : Op) :
    Ordered (ledger.step op).attachments := by
  have hidentities := identities_step ledger op
  cases hadm : ledger.admitted op with
  | nil =>
    rw [hadm, map_nil, append_nil] at hidentities
    exact ordered_of_identities h hidentities.symm
  | cons _ _ =>
    unfold admitted at hadm
    split at hadm
    · rename_i input' next hatt
      have hinv := admitAttachment_inv hatt
      have hstep : ledger.step (.admitAttachment input') = next := by
        unfold step
        rw [hatt]
      rw [hstep, hinv.right]
      exact ordered_concat h (follows_of_admitted hinv.left)
    · cases hadm

theorem ordered_run (ops : List Op) : Ordered (admissions init ops) := by
  have hrun : Ordered (run step init ops).attachments :=
    @run_invariant _ _ step (fun ledger => Ordered ledger.attachments) init
      (fun _ op h => ordered_step h op) ordered_nil ops
  apply ordered_of_identities hrun
  rw [identities_run]
  rfl

/-!
## Successive attachments of one thread
-/

def ofThread (key : OwnerKey) (threadId : Bytes) (row : Attachment) : Bool :=
  row.reference.ownerKey == key && row.threadId == threadId

def pairs (key : OwnerKey) (threadId : Bytes) (log : List Attachment) : List (Nat × Nat) :=
  (log.filter (ofThread key threadId)).map (fun row =>
    (row.reference.threadInstanceGeneration, row.reference.attachmentGeneration))

def pairLt (a b : Nat × Nat) : Prop :=
  a.1 < b.1 ∨ (a.1 = b.1 ∧ a.2 < b.2)

instance (a b : Nat × Nat) : Decidable (pairLt a b) :=
  inferInstanceAs (Decidable (a.1 < b.1 ∨ (a.1 = b.1 ∧ a.2 < b.2)))

theorem ofThread_eq_true {row : Attachment} : ofThread key threadId row = true ↔
      row.reference.ownerKey = key ∧ row.threadId = threadId := by
  simp [ofThread]

/-- A pair of the thread comes from an attachment; the pairs before it are of attachments
admitted before. -/
theorem pairs_split {before after : List (Nat × Nat)} {pair : Nat × Nat}
    (h : pairs key threadId log = before ++ pair :: after) :
    exists earlier row later, log = earlier ++ row :: later ∧
      ofThread key threadId row = true ∧
      pair = (row.reference.threadInstanceGeneration, row.reference.attachmentGeneration) ∧
      before = pairs key threadId earlier := by
  rcases map_eq_append_iff.mp h with ⟨_, _, hfilter, rfl, htail⟩
  rcases map_eq_cons_iff.mp htail with ⟨row, _, rfl, hpair, _⟩
  rcases filter_eq_append_iff.mp hfilter with ⟨front, _, rfl, rfl, hback⟩
  rcases filter_eq_cons_iff.mp hback with ⟨skipped, later, rfl, hskipped, hrow, _⟩
  refine ⟨front ++ skipped, row, later, ?_, hrow, hpair.symm, ?_⟩
  · rw [append_assoc]
  · have hnone : skipped.filter (ofThread key threadId) = [] :=
      filter_eq_nil_iff.mpr hskipped
    rw [pairs, filter_append, hnone, append_nil]

theorem mem_pairs {pair : Nat × Nat} : pair ∈ pairs key threadId log ↔ exists row, row ∈ log ∧
      ofThread key threadId row = true ∧
      (row.reference.threadInstanceGeneration, row.reference.attachmentGeneration) = pair := by
  simp [pairs, and_assoc]

theorem follows_pairs {earlier : List Attachment} {row : Attachment} (h : Follows earlier row)
    (hrow : ofThread key threadId row = true) : (forall old, old ∈ pairs key threadId earlier ->
      old.1 = row.reference.threadInstanceGeneration ->
      old.2 < row.reference.attachmentGeneration) ∧
    ((exists old, old ∈ pairs key threadId earlier ∧
        old.1 = row.reference.threadInstanceGeneration) ∨
      forall old, old ∈ pairs key threadId earlier ->
        old.1 < row.reference.threadInstanceGeneration) := by
  rcases ofThread_eq_true.mp hrow with ⟨hkey, hthread⟩
  constructor
  · intro old hold hinst
    rcases mem_pairs.mp hold with ⟨row', hrow', hof, hpair⟩
    subst hpair
    have howner := (ofThread_eq_true.mp hof).left.trans hkey.symm
    exact (h.instances row' hrow' ⟨howner, hinst⟩).right
  · rcases h.newer with ⟨row', hrow', hinst⟩ | hall
    · -- The known instance is of the same thread.
      have hsame := (h.instances row' hrow' hinst).left
      have hof : ofThread key threadId row' = true :=
        ofThread_eq_true.mpr ⟨hinst.left.trans hkey, hsame.trans hthread⟩
      exact Or.inl ⟨_, mem_pairs.mpr ⟨row', hrow', hof, rfl⟩, hinst.right⟩
    · refine Or.inr ?_
      intro old hold
      rcases mem_pairs.mp hold with ⟨row', hrow', hof, hpair⟩
      subst hpair
      exact hall row' hrow' ((ofThread_eq_true.mp hof).left.trans hkey.symm)

/-- For each owner and thread, an attachment is a newer generation than all earlier ones of
its instance, and an instance that was not admitted before comes after all earlier pairs
and is newer than every instance of the owner.  An instance belongs to one thread. -/
theorem thread_instances_ordered (ops : List Op) : (forall key threadId before pair after,
      pairs key threadId (admissions init ops) = before ++ pair :: after ->
      (forall old, old ∈ before -> old.1 = pair.1 -> old.2 < pair.2) ∧
      ((exists old, old ∈ before ∧ old.1 = pair.1) ∨
        forall old, old ∈ before -> pairLt old pair)) ∧
    (forall before input after, admissions init ops = before ++ input :: after -> (exists old, old ∈
      before ∧ sameInstance old input) ∨ forall old, old ∈ before -> old.reference.ownerKey =
      input.reference.ownerKey -> old.reference.threadInstanceGeneration <
      input.reference.threadInstanceGeneration) ∧
    (forall a, a ∈ admissions init ops -> forall b, b ∈ admissions init ops ->
      sameInstance a b -> a.threadId = b.threadId) := by
  have hord := ordered_run ops
  refine ⟨?_, ?_, ?_⟩
  · intro key threadId before pair after hsplit
    rcases pairs_split hsplit with ⟨earlier, row, later, hlog, hrow, hpair, hbefore⟩
    subst hpair hbefore
    rcases follows_pairs (hord earlier row later hlog) hrow with ⟨hgen, hnewer⟩
    refine ⟨hgen, hnewer.imp_right ?_⟩
    intro hall old hold
    exact Or.inl (hall old hold)
  · intro before input after hsplit
    exact (hord before input after hsplit).newer
  · intro a ha b hb hsame
    rcases append_of_mem ha with ⟨front, back, hsplit⟩
    rw [hsplit] at hb
    rcases mem_append.mp hb with hfront | hrest
    · have hswapped : sameInstance b a := ⟨hsame.left.symm, hsame.right.symm⟩
      exact ((hord front a back hsplit).instances b hfront hswapped).left.symm
    · rcases mem_cons.mp hrest with heq | hback
      · rw [heq]
      · rcases append_of_mem hback with ⟨middle, last, rfl⟩
        rw [<- cons_append, <- append_assoc] at hsplit
        exact ((hord (front ++ a :: middle) b last hsplit).instances a (by simp) hsame).left

/-- Instance 1, instance 2, and instance 1 again, each taken off before the next. -/
def reattachedRun : List Op :=
  [.admitOwner sampleOwner, .admitAttachment (sampleAttachment 1 1 0x61),
    .completeRegistrationNoEffect (sampleAttachment 1 1 0x61).reference (Vector.replicate 64 0x61),
    .admitAttachment (sampleAttachment 2 1 0x62), .completeRegistrationNoEffect (sampleAttachment 2
    1 0x62).reference (Vector.replicate 64 0x62), .admitAttachment (sampleAttachment 1 2 0x63)]

/-- An instance that a newer instance of its thread has replaced is attached again. -/
theorem old_instance_reattached :
    pairs sampleOwner.key (ascii "thread") (admissions init reattachedRun) =
      [(1, 1), (2, 1), (1, 2)] ∧
    ¬(pairs sampleOwner.key (ascii "thread") (admissions init reattachedRun)).Pairwise
      pairLt := by
  exact ⟨rfl, by decide⟩

end Ledger

end Omux.Native
