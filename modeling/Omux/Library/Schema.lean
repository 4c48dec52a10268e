import Omux.Library.Fallible
import Omux.Library.Widths

/-!
# Shapes of serialized records

A shape describes one type: its encoder, the range of the widths of its scalars and how
much of that range a value has spent already.  Its laws say that the measure is exact, so
that a ceiling paid for once stays enough for every later value with the same texts.
-/

namespace Omux.Library

inductive MeasureError where
  | tooLarge | underflow

abbrev Measured := Except MeasureError

def countJson (limit : Nat) (encoded : Bytes) : Measured Nat :=
  orFail (countWithin limit encoded) .tooLarge

/-- Subtraction of unsigned machine numbers. -/
def subtract (a b : Nat) : Measured Nat := do
  failIf (decide (a < b)) .underflow
  .ok (a - b)

theorem countJson_of_le {limit : Nat} {encoded : Bytes} (h : encoded.length <= limit) :
    countJson limit encoded = .ok encoded.length := by
  unfold countJson countWithin
  rw [if_pos h]
  rfl

theorem subtract_of_le {a b : Nat} (h : b <= a) : subtract a b = .ok (a - b) := by
  unfold subtract
  rw [decide_eq_false (not_lt.mpr h)]
  rfl

/-!
## Widest and narrowest of a list
-/

theorem le_foldl_min_iff {α : Type} {f : α -> Nat} {all : List α} {start bound : Nat} :
    bound <= all.foldl (fun least a => min least (f a)) start ↔
      bound <= start ∧ forall a, a ∈ all -> bound <= f a := by
  induction all generalizing start with
  | nil => simp
  | cons a _ ih => simp [ih, and_assoc]

theorem foldl_min_le {α : Type} (f : α -> Nat) {all : List α} (start : Nat) {a : α}
    (h : a ∈ all) : all.foldl (fun least a => min least (f a)) start <= f a :=
  (le_foldl_min_iff.mp (Nat.le_refl _)).2 a h

theorem foldl_max_le_iff {α : Type} {f : α -> Nat} {all : List α} {start bound : Nat} :
    all.foldl (fun most a => max most (f a)) start <= bound ↔
      start <= bound ∧ forall a, a ∈ all -> f a <= bound := by
  induction all generalizing start with
  | nil => simp
  | cons a _ ih => simp [ih, and_assoc]

theorem le_foldl_max {α : Type} (f : α -> Nat) {all : List α} (start : Nat) {a : α}
    (h : a ∈ all) : f a <= all.foldl (fun most a => max most (f a)) start :=
  (foldl_max_le_iff.mp (Nat.le_refl _)).2 a h

def leastWidth {α : Type} (name : α -> Bytes) (all : List α) : Nat :=
  all.foldl (fun least a => min least (jsonString (name a)).length) (2 ^ 64 - 1)

def greatestWidth {α : Type} (name : α -> Bytes) (all : List α) : Nat :=
  all.foldl (fun most a => max most (jsonString (name a)).length) 0

/-!
## Scalars
-/

structure Scalar (limit : Nat) (α : Type) where
  json : α -> Bytes
  minimum : Nat
  maximum : Nat
  fits : α -> Bool
  minimum_le : forall a, minimum <= (json a).length
  le_maximum : forall a, fits a = true -> (json a).length <= maximum
  ordered : minimum <= maximum
  within : maximum <= limit

namespace Scalar

variable {limit : Nat} {α : Type}

def widening (self : Scalar limit α) (a : α) : Measured Nat := do
  let size <- countJson limit (self.json a)
  subtract size self.minimum

theorem widening_eq (self : Scalar limit α) {a : α} (h : self.fits a = true) :
    self.widening a = .ok ((self.json a).length - self.minimum) := by
  have hlimit := (self.le_maximum a h).trans self.within
  unfold widening
  rw [countJson_of_le hlimit]
  exact subtract_of_le (self.minimum_le a)

def unsigned (largest : Nat) (hwithin : (decimal largest).length <= limit) : Scalar limit Nat where
  json := decimal
  minimum := 1
  maximum := (decimal largest).length
  fits n := decide (n <= largest)
  minimum_le n := length_decimal_pos n
  le_maximum _ h := length_decimal_mono (of_decide_eq_true h)
  ordered := length_decimal_pos largest
  within := hwithin

/-- Signed numbers of two's complement; `half` is the magnitude of the least one. -/
def signed (half : Nat) (hhalf : 0 < half)
    (hwithin : 1 + (decimal half).length <= limit) : Scalar limit Int where
  json := decimalInt
  minimum := 1
  maximum := max (decimalInt (half - 1 : Int)).length (decimalInt (-(half : Int))).length
  fits n := decide (-(half : Int) <= n) && decide (n < half)
  minimum_le n := length_decimalInt_pos n
  le_maximum n h := by
    rw [Bool.and_eq_true, decide_eq_true_iff, decide_eq_true_iff] at h
    have hleast : (decimalInt (-(half : Int))).length = 1 + (decimal half).length := by
      unfold decimalInt
      rw [if_pos (by omega), List.length_append, List.length_singleton, Int.natAbs_neg,
        Int.natAbs_natCast]
    rw [hleast]
    exact Nat.le_trans (length_decimalInt_le h.1 (Int.le_of_lt h.2)) (Nat.le_max_right _ _)
  ordered := Nat.le_trans (length_decimalInt_pos _) (Nat.le_max_left _ _)
  within := by
    refine Nat.max_le.mpr ⟨?_, ?_⟩
    all_goals exact Nat.le_trans (length_decimalInt_le (by omega) (by omega)) hwithin

def boolean (hwithin : 5 <= limit) : Scalar limit Bool where
  json := jsonBool
  minimum := 4
  maximum := 5
  fits _ := true
  minimum_le a := by cases a <;> decide
  le_maximum a _ := by cases a <;> decide
  ordered := by decide
  within := hwithin

/-- Texts of a printer that never prints more than its documented width. -/
def printed (write : α -> Bytes) (width : Nat) (hwrite : forall a, 0 < (write a).length)
    (hwidth : 0 < width) (hwithin : width <= limit) : Scalar limit α where
  json := write
  minimum := 1
  maximum := width
  fits a := decide ((write a).length <= width)
  minimum_le a := hwrite a
  le_maximum _ h := of_decide_eq_true h
  ordered := hwidth
  within := hwithin

/-- Tags of an enumeration; the range is searched from the ends of the machine word. -/
def enumeration (name : α -> Bytes) (all : List α)
    (hall : forall a, a ∈ all := by intro a; cases a <;> decide)
    (hordered : leastWidth name all <= greatestWidth name all := by decide +kernel)
    (hwithin : greatestWidth name all <= limit := by decide +kernel) : Scalar limit α where
  json a := jsonString (name a)
  minimum := leastWidth name all
  maximum := greatestWidth name all
  fits _ := true
  minimum_le a := foldl_min_le (fun a => (jsonString (name a)).length) _ (hall a)
  le_maximum a _ := le_foldl_max (fun a => (jsonString (name a)).length) _ (hall a)
  ordered := hordered
  within := hwithin

def optional (self : Scalar limit α) (hwithin : 4 <= limit) : Scalar limit (Option α) where
  json := jsonOption self.json
  minimum := min 4 self.minimum
  maximum := max 4 self.maximum
  fits a := a.all self.fits
  minimum_le a := by
    cases a with
    | none => exact Nat.min_le_left _ _
    | some a => exact Nat.le_trans (Nat.min_le_right _ _) (self.minimum_le a)
  le_maximum a h := by
    cases a with
    | none => exact Nat.le_max_left _ _
    | some a => exact Nat.le_trans (self.le_maximum a h) (Nat.le_max_right _ _)
  ordered := Nat.le_trans (Nat.min_le_left _ _) (Nat.le_max_left _ _)
  within := Nat.max_le.mpr ⟨hwithin, self.within⟩

end Scalar

/-!
## Shapes

The length of an encoding is the length `base` that it has with every scalar at its
least width, and what the scalars have spent of their range.
-/

structure Shape (α : Type) where
  json : α -> Bytes
  minimum : Nat
  maximum : Nat
  widening : α -> Measured Nat
  fits : α -> Bool
  same : α -> α -> Bool
  base : α -> Nat
  ordered : minimum <= maximum
  spends : forall a, fits a = true -> exists spent, widening a = .ok spent ∧
    (json a).length = base a + spent ∧ spent <= maximum - minimum
  base_same : forall a b, same a b = true -> base a = base b

namespace Shape

variable {limit : Nat} {α β : Type}

def ofScalar (scalar : Scalar limit α) : Shape α where
  json := scalar.json
  minimum := scalar.minimum
  maximum := scalar.maximum
  widening := scalar.widening
  fits := scalar.fits
  same _ _ := true
  base _ := scalar.minimum
  ordered := scalar.ordered
  spends a h := by
    have hleast := scalar.minimum_le a
    have hmost := scalar.le_maximum a h
    exact ⟨_, scalar.widening_eq h, by omega, by omega⟩
  base_same _ _ _ := rfl

/-- Texts, lists and everything else that is no scalar. -/
def rigid [DecidableEq α] (json : α -> Bytes) : Shape α where
  json := json
  minimum := 0
  maximum := 0
  widening _ := .ok 0
  fits _ := true
  same a b := decide (a = b)
  base a := (json a).length
  ordered := Nat.le_refl 0
  spends a _ := ⟨0, rfl, rfl, Nat.le_refl 0⟩
  base_same a b h := by rw [of_decide_eq_true h]

def comap (get : α -> β) (shape : Shape β) : Shape α where
  json a := shape.json (get a)
  minimum := shape.minimum
  maximum := shape.maximum
  widening a := shape.widening (get a)
  fits a := shape.fits (get a)
  same a b := shape.same (get a) (get b)
  base a := shape.base (get a)
  ordered := shape.ordered
  spends a := shape.spends (get a)
  base_same a b := shape.base_same (get a) (get b)

/-- An absent record has spent nothing of the range of its type. -/
def optional (shape : Shape α) : Shape (Option α) where
  json := jsonOption shape.json
  minimum := shape.minimum
  maximum := shape.maximum
  widening
    | none => .ok 0
    | some a => shape.widening a
  fits a := a.all shape.fits
  same
    | none, none => true
    | some a, some b => shape.same a b
    | _, _ => false
  base
    | none => jsonNull.length
    | some a => shape.base a
  ordered := shape.ordered
  spends a h := by
    cases a with
    | none => exact ⟨0, rfl, rfl, Nat.zero_le _⟩
    | some a => exact shape.spends a h
  base_same a b h := by
    cases a with
    | none =>
      cases b with
      | none => rfl
      | some b => cases h
    | some a =>
      cases b with
      | none => cases h
      | some b => exact shape.base_same a b h

/-!
### Records
-/

abbrev Members (α : Type) := List (Bytes × Shape α)

variable (members : Members α)

def membersWidening (a : α) : Measured Nat :=
  members.foldlM (fun widened member => do
    let more <- member.2.widening a
    .ok (widened + more)) 0

def membersBase (a : α) : Nat :=
  2 + (members.map (fun member =>
    (jsonString member.1).length + 1 + member.2.base a)).sum + (members.length - 1)

def membersJson (a : α) : Bytes :=
  jsonObject (members.map (fun member => (member.1, member.2.json a)))

theorem length_membersJson (members : Members α) (a : α) :
    (membersJson members a).length = 2 + (members.map (fun member =>
      (jsonString member.1).length + 1 + (member.2.json a).length)).sum +
        (members.length - 1) := by
  rw [membersJson, length_jsonObject, List.map_map, List.length_map]
  rfl

/-- The members of a record spend one after the other. -/
theorem members_spend (members : Members α) (a : α) (widened : Nat)
    (h : members.all (fun member => member.2.fits a) = true) :
    exists spent, members.foldlM (fun widened member => do
        let more <- member.2.widening a
        Except.ok (widened + more)) widened = (.ok (widened + spent) : Measured Nat) ∧
      (members.map (fun member =>
        (jsonString member.1).length + 1 + (member.2.json a).length)).sum =
        (members.map (fun member =>
          (jsonString member.1).length + 1 + member.2.base a)).sum + spent ∧
      spent + (members.map (fun member => member.2.minimum)).sum <=
        (members.map (fun member => member.2.maximum)).sum := by
  induction members generalizing widened with
  | nil => exact ⟨0, rfl, rfl, Nat.le_refl 0⟩
  | cons member _ ih =>
    rw [List.all_cons, Bool.and_eq_true] at h
    rcases member.2.spends a h.1 with ⟨spent, hwidening, _, _⟩
    rcases ih (widened + spent) h.2 with ⟨more, hrest, _, _⟩
    have hordered := member.2.ordered
    refine ⟨spent + more, ?_, ?_, ?_⟩
    · rw [List.foldlM_cons, hwidening, <- Nat.add_assoc]
      exact hrest
    · simp only [List.map_cons, List.sum_cons]
      omega
    · simp only [List.map_cons, List.sum_cons]
      omega

theorem members_base_same (members : Members α) {a b : α}
    (h : members.all (fun member => member.2.same a b) = true) :
    membersBase members a = membersBase members b := by
  have hmap : members.map (fun member =>
      (jsonString member.1).length + 1 + member.2.base a) =
      members.map (fun member => (jsonString member.1).length + 1 + member.2.base b) := by
    refine List.map_congr_left (fun member hmember => ?_)
    rw [member.2.base_same a b (List.all_eq_true.mp h member hmember)]
  rw [membersBase, membersBase, hmap]

def record : Shape α where
  json := membersJson members
  minimum := (members.map (fun member => member.2.minimum)).sum
  maximum := (members.map (fun member => member.2.maximum)).sum
  widening := membersWidening members
  fits a := members.all (fun member => member.2.fits a)
  same a b := members.all (fun member => member.2.same a b)
  base := membersBase members
  ordered := by
    induction members with
    | nil => exact Nat.le_refl 0
    | cons member rest ih => exact Nat.add_le_add member.2.ordered ih
  spends a h := by
    rcases members_spend members a 0 h with ⟨spent, hwidening, hlength, hspent⟩
    refine ⟨spent, ?_, ?_, ?_⟩
    · rw [Nat.zero_add] at hwidening
      exact hwidening
    · rw [length_membersJson, hlength, membersBase]
      omega
    · omega
  base_same _ _ := members_base_same members

@[reducible] def NoLonger (a b : α) : Members α -> Prop
  | [] => True
  | member :: rest => (member.2.json a).length <= (member.2.json b).length ∧ NoLonger a b rest

theorem length_record_le {members : Members α} {a b : α} (h : NoLonger a b members) :
    ((record members).json a).length <= ((record members).json b).length := by
  change (membersJson members a).length <= (membersJson members b).length
  rw [length_membersJson, length_membersJson]
  refine Nat.add_le_add_right (Nat.add_le_add_left ?_ _) _
  induction members with
  | nil => exact le_rfl
  | cons _ _ ih => exact Nat.add_le_add (Nat.add_le_add_left h.left _) (ih h.right)

def span (shape : Shape α) : Nat :=
  shape.maximum - shape.minimum

/-!
## Lists of records
-/

def sameAll (shape : Shape α) : List α -> List α -> Bool
  | [], [] => true
  | a :: as, b :: bs => shape.same a b && sameAll shape as bs
  | _, _ => false

/-- Records spend of a reserve that was paid before. -/
def spend (shape : Shape α) (reserve : Nat) (records : List α) : Measured Nat :=
  records.foldlM (fun reserve record => do
    let widening <- shape.widening record
    subtract reserve widening) reserve

/-- With a span for every record the reserve suffices, and it loses exactly what the
records are longer than at the least width. -/
theorem spend_of_fits (shape : Shape α) {reserve : Nat} {records : List α}
    (hfits : records.all shape.fits = true) (hresv : records.length * shape.span <= reserve) :
    exists left, shape.spend reserve records = .ok left ∧
      left + (records.map (fun record => (shape.json record).length)).sum =
        reserve + (records.map shape.base).sum ∧
      reserve <= left + records.length * shape.span := by
  induction records generalizing reserve with
  | nil => exact ⟨reserve, rfl, rfl, Nat.le_add_right _ _⟩
  | cons record rest ih =>
    rw [List.all_cons, Bool.and_eq_true] at hfits
    rcases shape.spends record hfits.1 with ⟨spent, hwidening, _, hspent⟩
    rw [List.length_cons, Nat.succ_mul] at hresv ⊢
    have hspan : spent <= shape.span := hspent
    rcases ih hfits.2 (by omega : rest.length * shape.span <= reserve - spent) with
      ⟨left, hspend, _, _⟩
    refine ⟨left, ?_, ?_, by omega⟩
    · rw [spend, List.foldlM_cons, hwidening]
      change (subtract reserve spent >>= fun reserve => shape.spend reserve rest) = _
      rw [subtract_of_le (by omega)]
      exact hspend
    · simp only [List.map_cons, List.sum_cons]
      omega

variable {as bs : List α}

theorem map_of_sameAll (shape : Shape α) {f : α -> β}
    (hf : forall a b, shape.same a b = true -> f a = f b)
    (h : shape.sameAll as bs = true) : as.map f = bs.map f := by
  induction as generalizing bs with
  | nil =>
    cases bs with
    | nil => rfl
    | cons => cases h
  | cons a as ih =>
    cases bs with
    | nil => cases h
    | cons b bs =>
      rw [sameAll, Bool.and_eq_true] at h
      rw [List.map_cons, List.map_cons, hf a b h.1, ih h.2]

theorem length_of_sameAll (shape : Shape α)
    (h : shape.sameAll as bs = true) : as.length = bs.length := by
  have hunit := shape.map_of_sameAll (fun _ _ _ => rfl : forall a b : α,
    shape.same a b = true -> (fun _ => ()) a = (fun _ => ()) b) h
  simpa using congrArg List.length hunit

theorem base_of_sameAll (shape : Shape α)
    (h : shape.sameAll as bs = true) : (as.map shape.base).sum = (bs.map shape.base).sum := by
  rw [shape.map_of_sameAll shape.base_same h]

end Shape

/-!
## Sections

A document consists of numbers and lists of records.  It prepays the span of its
numbers, and of a fixed number of slots for each list.
-/

inductive Section (σ : Type) : Type 1 where
  | number (name : Bytes) (shape : Shape Nat) (get : σ -> Nat)
  | records {α : Type} (name : Bytes) (shape : Shape α) (get : σ -> List α)

namespace Section

variable {σ : Type}

def name : Section σ -> Bytes
  | .number name _ _ => name
  | .records name _ _ => name

def json (self : Section σ) (s : σ) : Bytes :=
  match self with
  | .number _ shape get => shape.json (get s)
  | .records _ shape get => jsonArray ((get s).map shape.json)

/-- Add what the section may still grow by to a reserve. -/
def reserve (slots : Nat) (self : Section σ) (s : σ) (reserve : Nat) : Measured Nat :=
  match self with
  | .number _ shape get => do
    let widening <- shape.widening (get s)
    let left <- subtract shape.span widening
    .ok (reserve + left)
  | .records _ shape get => shape.spend (reserve + shape.span * slots) (get s)

def fits (self : Section σ) (s : σ) : Bool :=
  match self with
  | .number _ shape get => shape.fits (get s)
  | .records _ shape get => (get s).all shape.fits

def within (slots : Nat) (self : Section σ) (s : σ) : Bool :=
  match self with
  | .number _ _ _ => true
  | .records _ _ get => decide ((get s).length <= slots)

def same (self : Section σ) (s t : σ) : Bool :=
  match self with
  | .number _ shape get => shape.same (get s) (get t)
  | .records _ shape get => shape.sameAll (get s) (get t)

/-- What the section and its reserve take together. -/
def ceiling (slots : Nat) (self : Section σ) (s : σ) : Nat :=
  match self with
  | .number _ shape get => shape.span + shape.base (get s)
  | .records _ shape get =>
    shape.span * slots + (2 + ((get s).map shape.base).sum + ((get s).length - 1))

theorem reserve_of_fits {slots : Nat} (self : Section σ) {s : σ} (before : Nat)
    (hfits : self.fits s = true) (hwithin : self.within slots s = true) :
    exists left, self.reserve slots s before = .ok left ∧
      left + (self.json s).length = before + self.ceiling slots s := by
  cases self with
  | number name shape get =>
    rcases shape.spends (get s) hfits with ⟨spent, hwidening, _, hspent⟩
    refine ⟨before + (shape.span - spent), ?_, ?_⟩
    · simp [reserve, hwidening, bind_ok, subtract_of_le hspent, Shape.span]
    · have hspan : spent <= shape.span := hspent
      simp only [json, ceiling]
      omega
  | records name shape get =>
    have hslots : (get s).length * shape.span <= before + shape.span * slots := by
      have hcount : (get s).length <= slots := of_decide_eq_true hwithin
      rw [Nat.mul_comm shape.span slots]
      exact (Nat.mul_le_mul_right _ hcount).trans (Nat.le_add_left _ _)
    rcases shape.spend_of_fits hfits hslots with ⟨left, hspend, _, _⟩
    refine ⟨left, hspend, ?_⟩
    simp only [json, ceiling, length_jsonArray, List.map_map, List.length_map, Function.comp_def]
    omega

theorem ceiling_same (slots : Nat) (self : Section σ) {s t : σ}
    (h : self.same s t = true) : self.ceiling slots s = self.ceiling slots t := by
  cases self with
  | number name shape get => simp [ceiling, shape.base_same _ _ h]
  | records name shape get => simp [ceiling, shape.base_of_sameAll h, shape.length_of_sameAll h]

def reserveAll (slots : Nat) (sections : List (Section σ)) (s : σ) (before : Nat) :
    Measured Nat :=
  sections.foldlM (fun before part => part.reserve slots s before) before

theorem reserveAll_of_fits {slots : Nat} {sections : List (Section σ)} {s : σ}
    (before : Nat) (hfits : sections.all (fun part => part.fits s) = true)
    (hwithin : sections.all (fun part => part.within slots s) = true) :
    exists left, reserveAll slots sections s before = .ok left ∧
      left + (sections.map (fun part => (part.json s).length)).sum =
        before + (sections.map (fun part => part.ceiling slots s)).sum := by
  induction sections generalizing before with
  | nil => exact ⟨before, rfl, rfl⟩
  | cons part _ ih =>
    rw [List.all_cons, Bool.and_eq_true] at hfits hwithin
    rcases part.reserve_of_fits before hfits.1 hwithin.1 with ⟨middle, hpart, _⟩
    rcases ih middle hfits.2 hwithin.2 with ⟨left, hrest, _⟩
    refine ⟨left, ?_, ?_⟩
    · rw [reserveAll, List.foldlM_cons, hpart]
      exact hrest
    · simp only [List.map_cons, List.sum_cons]
      omega

end Section
end Omux.Library
