import TrinoOdbc.CopyDesc

/-!
# TrinoOdbc.DescriptorLinks

The statements and descriptors of a connection, which refer to each other by raw pointers: a
statement to its active ARD, a descriptor to the statement it has been set to.

* `LinkCall`, `exec` — the calls that allocate, free, set and copy, with the pointers they follow.
* `Sound` — no pointer of a live object dangles.
* `links_lawful_iff` — the sequences of calls that keep it so.

An address that has been freed may be allocated again.
-/

namespace TrinoOdbc

/-- `ards` has the live statements, with their active ARDs, and `allocated` the live descriptors
that the application has allocated. -/
structure Links where
  connection : Nat
  heap : DescHeap
  ards : Nat → Option DescRef
  allocated : Nat → Bool

inductive LinkCall where
  | allocStmt (stmt : Nat) (headers : DescType → DescriptorHeader)
  | freeStmt (stmt : Nat)
  | allocDesc (desc : Nat) (header : DescriptorHeader)
  | freeDesc (desc : Nat)
  | setRowDesc (stmt : Nat) (desc : Option DescRef)
  | copyDesc (src dst : DescRef)

/-- A call through a pointer to a statement that is null or has been freed. -/
inductive Fault where
  | nullStatement | freedStatement
  deriving DecidableEq, Repr

def notOfConnection : DiagnosticRecord :=
  { sqlState := .shy024InvalidAttributeValue
    message := "Descriptor does not belong to the statement connection." }

def setToAnother : DiagnosticRecord :=
  generalError "Descriptor has been set to another statement."

namespace Links

/-- An implicit descriptor lives as long as its statement. -/
def live (w : Links) : DescRef → Bool
  | .implicit stmt type => (w.ards stmt).isSome && type ≠ .unknown
  | .explicit desc => w.allocated desc

/-- The calls with handles of live objects, and with new addresses. -/
def possible (w : Links) : LinkCall → Bool
  | .allocStmt stmt _ => (w.ards stmt).isNone
  | .freeStmt stmt => (w.ards stmt).isSome
  | .allocDesc desc _ => !w.allocated desc
  | .freeDesc desc => w.allocated desc
  | .setRowDesc stmt desc => (w.ards stmt).isSome && desc.all w.live
  | .copyDesc src dst => w.live src && w.live dst

def allocStmt (w : Links) (stmt : Nat) (headers : DescType → DescriptorHeader) : Links :=
  { w with
    heap := fun ref =>
      match ref with
      | .implicit s type =>
        if s = stmt then Descriptor.newImplicit stmt type (headers type) else w.heap ref
      | .explicit _ => w.heap ref
    ards := Function.update w.ards stmt (some (.implicit stmt .ard)) }

/-- `SQLFreeStmt` with `SQL_DROP`. -/
def freeStmt (w : Links) (stmt : Nat) : Links := { w with ards := Function.update w.ards stmt none }

def allocDesc (w : Links) (desc : Nat) (header : DescriptorHeader) : Links :=
  { w with
    heap := Function.update w.heap (.explicit desc) (Descriptor.newExplicit w.connection header)
    allocated := Function.update w.allocated desc true }

/-- `RestoreDescriptor` of a statement whose active ARD is `ard`. -/
def restoreDescriptor (stmt : Nat) (type : DescType) (ard : DescRef) : DescRef :=
  if type = .ard then .implicit stmt .ard else ard

/-- `SQLFreeDescriptor`: `Deregister` goes to the statement of the descriptor. -/
def freeDesc (w : Links) (desc : Nat) : Except Fault Links :=
  match (w.heap (.explicit desc)).stmt with
  | none => .error .nullStatement
  | some stmt =>
    match w.ards stmt with
    | none => .error .freedStatement
    | some ard =>
      .ok { w with
        ards := Function.update w.ards stmt
          (some (restoreDescriptor stmt (w.heap (.explicit desc)).type ard))
        allocated := Function.update w.allocated desc false }

/-- Why a descriptor cannot be set to a statement. -/
def checkRowDesc (w : Links) (stmt : Nat) (desc : DescRef) : Option DiagnosticRecord :=
  if (w.heap desc).conn ≠ some w.connection then some notOfConnection
  else
    match (w.heap desc).stmt with
    | none => none
    | some other => if other ≠ stmt then some setToAnother else none

/-- `SetARDDesc`. -/
def setArdDesc (w : Links) (stmt : Nat) : Option DescRef → Links
  | none => { w with ards := Function.update w.ards stmt (some (.implicit stmt .ard)) }
  | some desc =>
    { w with
      heap := w.heap.modify desc fun d => { d with type := .ard, stmt := some stmt }
      ards := Function.update w.ards stmt (some desc) }

/-- `SetAttribute` with `SQL_ATTR_APP_ROW_DESC`. -/
def setRowDesc (w : Links) (stmt : Nat) (desc : Option DescRef) : Links :=
  match desc.bind (w.checkRowDesc stmt) with
  | some _ => w
  | none => w.setArdDesc stmt desc

def exec (w : Links) : LinkCall → Except Fault Links
  | .allocStmt stmt headers => .ok (w.allocStmt stmt headers)
  | .freeStmt stmt => .ok (w.freeStmt stmt)
  | .allocDesc desc header => .ok (w.allocDesc desc header)
  | .freeDesc desc => w.freeDesc desc
  | .setRowDesc stmt desc => .ok (w.setRowDesc stmt desc)
  | .copyDesc src dst => .ok { w with heap := (w.heap.internalCopyDesc src dst).heap }

/-- A call with the handle of an object that is not live is not made. -/
def apply (w : Option Links) (c : LinkCall) : Option Links :=
  w.bind fun t => if t.possible c then (t.exec c).toOption else some t

/-- A connection without statements and descriptors. -/
def start (connection : Nat) (heap : DescHeap) : Links :=
  { connection, heap, ards := fun _ => none, allocated := fun _ => false }

/-! ## What is to hold -/

/-- The active ARD of a live statement is its implicit one or a live descriptor that has been set to
it, and no live descriptor refers to a freed statement. -/
structure Sound (w : Links) : Prop where
  active : ∀ stmt ref, w.ards stmt = some ref → ref = .implicit stmt .ard ∨
    ∃ desc, ref = .explicit desc ∧ w.allocated desc = true ∧
      (w.heap (.explicit desc)).stmt = some stmt
  refers : ∀ ref stmt, w.live ref = true → (w.heap ref).stmt = some stmt → w.ards stmt ≠ none

/-- Freeing a descriptor returns to the implicit ARD the statements for which it is active, and no
other. -/
def Returns (w w' : Links) : LinkCall → Prop
  | .freeDesc desc => ∀ stmt ref, w.ards stmt = some ref →
      w'.ards stmt = some (if ref = .explicit desc then .implicit stmt .ard else ref)
  | _ => True

def Lawful (w : Option Links) (c : LinkCall) : Prop :=
  ∃ t, w = some t ∧
    (t.possible c = true → ∃ t', t.exec c = .ok t' ∧ t'.Sound ∧ Returns t t' c)

/-- The calls that keep the links sound: a statement is freed when no other descriptor refers to it;
a descriptor is freed that has a statement, and that is active for it as an ARD, or else the
statement's own ARD is or the descriptor is no ARD; a descriptor that is set and accepted is one
that the application has allocated, or the implicit ARD of the statement; and a copy over an active
ARD has its statement. -/
def Keeps (w : Links) : LinkCall → Prop
  | .allocStmt _ _ | .allocDesc _ _ => True
  | .freeStmt stmt => ∀ ref, w.live ref = true → (w.heap ref).stmt = some stmt →
      ∃ type, ref = .implicit stmt type
  | .freeDesc desc => ∃ stmt, (w.heap (.explicit desc)).stmt = some stmt ∧
      if (w.heap (.explicit desc)).type = .ard then
        w.ards stmt = some (.explicit desc) ∨ w.ards stmt = some (.implicit stmt .ard)
      else w.ards stmt ≠ some (.explicit desc)
  | .setRowDesc stmt desc => ∀ ref, desc = some ref → w.checkRowDesc stmt ref = none →
      ref = .implicit stmt .ard ∨ ∃ d, ref = .explicit d
  | .copyDesc src dst => (w.heap dst).type ≠ .ird → ∀ stmt, w.ards stmt = some dst →
      dst ≠ .implicit stmt .ard → (w.heap src).stmt = some stmt

def Meets (w : Option Links) (c : LinkCall) : Prop :=
  ∃ t, w = some t ∧ (t.possible c = true → t.Keeps c)

/-! ## One call -/

/-- What a possible call comes to. -/
def Succeeds (w : Links) (c : LinkCall) : Prop :=
  ∃ w', w.exec c = .ok w' ∧ w'.Sound ∧ Returns w w' c

section Calls

variable {w : Links}

theorem allocStmt_ards (stmt : Nat) (headers : DescType → DescriptorHeader) :
    (w.allocStmt stmt headers).ards = Function.update w.ards stmt (some (.implicit stmt .ard)) :=
  rfl

theorem freeStmt_ards (stmt : Nat) :
    (w.freeStmt stmt).ards = Function.update w.ards stmt none := rfl

theorem allocDesc_heap (desc : Nat) (header : DescriptorHeader) :
    (w.allocDesc desc header).heap =
      Function.update w.heap (.explicit desc) (Descriptor.newExplicit w.connection header) := rfl

theorem allocDesc_allocated (desc : Nat) (header : DescriptorHeader) :
    (w.allocDesc desc header).allocated = Function.update w.allocated desc true := rfl

theorem live_implicit {w : Links} {stmt : Nat} {type : DescType} :
    w.live (.implicit stmt type) = true ↔ w.ards stmt ≠ none ∧ type ≠ .unknown := by
  simp [live, Option.isSome_iff_ne_none]

/-- Sound links after a change of the ARD of one statement. -/
theorem Sound.updateArd (h : w.Sound) {stmt : Nat} {ref : DescRef} {heap : DescHeap}
    (hlive : w.ards stmt ≠ none)
    (hstmt : ∀ r, (heap r).stmt = (w.heap r).stmt ∨ (heap r).stmt = some stmt)
    (hother : ∀ s d, s ≠ stmt → w.ards s = some (.explicit d) →
      (heap (.explicit d)).stmt = (w.heap (.explicit d)).stmt)
    (href : ref = .implicit stmt .ard ∨
      ∃ d, ref = .explicit d ∧ w.allocated d = true ∧ (heap (.explicit d)).stmt = some stmt) :
    Sound { w with heap, ards := Function.update w.ards stmt (some ref) } := by
  have hdomain : ∀ s, Function.update w.ards stmt (some ref) s ≠ none ↔ w.ards s ≠ none := by
    intro s
    by_cases hs : s = stmt
    · rw [hs, Function.update_self]
      exact iff_of_true (by nofun) hlive
    · rw [Function.update_of_ne hs]
  refine ⟨fun s r hr => ?_, fun r s hr hs => ?_⟩
  · change Function.update w.ards stmt (some ref) s = some r at hr
    by_cases heq : s = stmt
    · subst heq
      rw [Function.update_self] at hr
      obtain rfl := Option.some.inj hr
      exact href
    · rw [Function.update_of_ne heq] at hr
      rcases h.active s r hr with rfl | ⟨d, rfl, halloc, hd⟩
      · exact .inl rfl
      · exact .inr ⟨d, rfl, halloc, by rw [hother s d heq hr, hd]⟩
  · refine (hdomain s).mpr ?_
    have hr' : w.live r = true := by
      cases r with
      | implicit s' type =>
        have := live_implicit.mp hr
        exact live_implicit.mpr ⟨(hdomain s').mp this.1, this.2⟩
      | explicit d => exact hr
    rcases hstmt r with hsame | hnew
    · exact h.refers r s hr' (hsame ▸ hs)
    · rw [hnew] at hs
      obtain rfl := Option.some.inj hs
      exact hlive

theorem allocStmt_sound (h : w.Sound) {stmt : Nat} (hnew : w.ards stmt = none)
    (headers : DescType → DescriptorHeader) : (w.allocStmt stmt headers).Sound := by
  have hdomain : ∀ s, w.ards s ≠ none → (w.allocStmt stmt headers).ards s ≠ none := by
    intro s hs
    by_cases heq : s = stmt
    · exact absurd (heq ▸ hnew) hs
    · rwa [allocStmt_ards, Function.update_of_ne heq]
  refine ⟨fun s r hr => ?_, fun r s hr hs => ?_⟩
  · by_cases heq : s = stmt
    · subst heq
      have hr' : (w.allocStmt s headers).ards s = some (.implicit s .ard) := Function.update_self ..
      exact .inl (Option.some.inj (hr.symm.trans hr'))
    · rw [allocStmt_ards, Function.update_of_ne heq] at hr
      exact h.active s r hr
  · cases r with
    | implicit s' type =>
      by_cases heq : s' = stmt
      · subst heq
        have hself : (w.allocStmt s' headers).ards s' = some (.implicit s' .ard) :=
          Function.update_self ..
        have hs' : some s' = some s := by simpa [allocStmt, Descriptor.newImplicit] using hs
        obtain rfl := Option.some.inj hs'
        rw [hself]
        nofun
      · have hlive := live_implicit.mp hr
        rw [allocStmt_ards, Function.update_of_ne heq] at hlive
        have hs' : (w.heap (.implicit s' type)).stmt = some s := by
          simpa [allocStmt, heq] using hs
        exact hdomain s (h.refers _ s (live_implicit.mpr hlive) hs')
    | explicit d => exact hdomain s (h.refers (.explicit d) s hr hs)

theorem freeStmt_succeeds_iff (h : w.Sound) (stmt : Nat) :
    w.Succeeds (.freeStmt stmt) ↔ w.Keeps (.freeStmt stmt) := by
  have hlive : ∀ r, (w.freeStmt stmt).live r = true ↔
      w.live r = true ∧ ¬ ∃ type, r = .implicit stmt type := by
    intro r
    cases r with
    | implicit s type =>
      rw [live_implicit, live_implicit, freeStmt_ards]
      by_cases heq : s = stmt
      · simp [heq]
      · simp [heq]
    | explicit d => simp [live, freeStmt]
  constructor
  · rintro ⟨w', hw', hsound, _⟩ r hr hs
    obtain rfl := Except.ok.inj hw'
    by_contra hno
    refine hsound.refers r stmt ((hlive r).mpr ⟨hr, hno⟩) hs ?_
    exact Function.update_self ..
  · intro hkeeps
    refine ⟨_, rfl, ⟨fun s r hr => ?_, fun r s hr hs => ?_⟩, trivial⟩
    · by_cases heq : s = stmt
      · rw [heq, freeStmt_ards, Function.update_self] at hr
        cases hr
      · rw [freeStmt_ards, Function.update_of_ne heq] at hr
        exact h.active s r hr
    · obtain ⟨hr', hno⟩ := (hlive r).mp hr
      have hne : s ≠ stmt := by
        rintro rfl
        exact hno (hkeeps r hr' hs)
      rw [freeStmt_ards, Function.update_of_ne hne]
      exact h.refers r s hr' hs

theorem allocDesc_sound (h : w.Sound) {desc : Nat} (hnew : w.allocated desc = false)
    (header : DescriptorHeader) : (w.allocDesc desc header).Sound := by
  have hother : ∀ d, w.allocated d = true → (w.allocDesc desc header).allocated d = true ∧
      (w.allocDesc desc header).heap (.explicit d) = w.heap (.explicit d) := by
    intro d hd
    have hne : d ≠ desc := by
      rintro rfl
      rw [hnew] at hd
      cases hd
    have hne' : DescRef.explicit d ≠ .explicit desc := fun heq => hne (DescRef.explicit.inj heq)
    exact ⟨by rwa [allocDesc_allocated, Function.update_of_ne hne],
      by rw [allocDesc_heap, Function.update_of_ne hne']⟩
  refine ⟨fun s r hr => ?_, fun r s hr hs => ?_⟩
  · rcases h.active s r hr with rfl | ⟨d, rfl, halloc, hd⟩
    · exact .inl rfl
    · obtain ⟨halloc', hheap⟩ := hother d halloc
      exact .inr ⟨d, rfl, halloc', by rw [hheap, hd]⟩
  · by_cases heq : r = .explicit desc
    · rw [heq, allocDesc_heap, Function.update_self] at hs
      cases hs
    · rw [allocDesc_heap, Function.update_of_ne heq] at hs
      refine h.refers r s ?_ hs
      cases r with
      | implicit s' type => exact hr
      | explicit d =>
        have hne : d ≠ desc := fun hd => heq (by rw [hd])
        simpa [live, allocDesc_allocated, Function.update_of_ne hne] using hr

theorem Sound.stmt_of_active (h : w.Sound) {stmt desc : Nat}
    (hard : w.ards stmt = some (.explicit desc)) :
    w.allocated desc = true ∧ (w.heap (.explicit desc)).stmt = some stmt := by
  rcases h.active stmt _ hard with himp | ⟨d, heq, halloc, hd⟩
  · cases himp
  · obtain rfl := DescRef.explicit.inj heq
    exact ⟨halloc, hd⟩

section FreeDesc

variable {desc stmt : Nat} {ard ref : DescRef}

/-- The links without a descriptor, whose statement then has the ARD `ref`. -/
def afterFreeDesc (w : Links) (desc stmt : Nat) (ref : DescRef) : Links :=
  { w with
    ards := Function.update w.ards stmt (some ref)
    allocated := Function.update w.allocated desc false }

theorem afterFreeDesc_ards_ne_none_iff (hard : w.ards stmt = some ard) (s : Nat) :
    (w.afterFreeDesc desc stmt ref).ards s ≠ none ↔ w.ards s ≠ none := by
  change Function.update w.ards stmt (some ref) s ≠ none ↔ _
  by_cases heq : s = stmt
  · rw [heq, Function.update_self, hard]
    exact iff_of_true (Option.some_ne_none _) (Option.some_ne_none _)
  · rw [Function.update_of_ne heq]

theorem live_afterFreeDesc (hard : w.ards stmt = some ard) {r : DescRef}
    (hr : (w.afterFreeDesc desc stmt ref).live r = true) : w.live r = true := by
  cases r with
  | implicit s type =>
    have hlive := live_implicit.mp hr
    exact live_implicit.mpr ⟨(afterFreeDesc_ards_ne_none_iff hard s).mp hlive.1, hlive.2⟩
  | explicit d =>
    change Function.update w.allocated desc false d = true at hr
    by_cases hd : d = desc
    · rw [hd, Function.update_self] at hr
      cases hr
    · rwa [Function.update_of_ne hd] at hr

theorem exec_freeDesc (hstmt : (w.heap (.explicit desc)).stmt = some stmt)
    (hard : w.ards stmt = some ard) :
    w.exec (.freeDesc desc) =
      .ok (w.afterFreeDesc desc stmt
        (restoreDescriptor stmt (w.heap (.explicit desc)).type ard)) := by
  simp [exec, freeDesc, hstmt, hard, afterFreeDesc]

theorem keeps_freeDesc_iff (hstmt : (w.heap (.explicit desc)).stmt = some stmt)
    (hard : w.ards stmt = some ard) :
    w.Keeps (.freeDesc desc) ↔
      restoreDescriptor stmt (w.heap (.explicit desc)).type ard =
        if ard = .explicit desc then .implicit stmt .ard else ard := by
  simp only [Keeps, hstmt, Option.some.injEq, exists_eq_left', hard, restoreDescriptor]
  by_cases htype : (w.heap (.explicit desc)).type = .ard
  · rw [if_pos htype, if_pos htype]
    by_cases hactive : ard = .explicit desc
    · simp [hactive]
    · simp [hactive, eq_comm]
  · rw [if_neg htype, if_neg htype]
    by_cases hactive : ard = .explicit desc
    · simp [hactive]
    · simp [hactive]

/-- Only the statement that a descriptor has been set to has it as its ARD. -/
theorem Sound.ards_ne_of_ne (h : w.Sound) (hstmt : (w.heap (.explicit desc)).stmt = some stmt)
    {s : Nat} (hs : s ≠ stmt) : w.ards s ≠ some (.explicit desc) := by
  intro hactive
  have hset := (h.stmt_of_active hactive).2
  rw [hstmt] at hset
  exact hs (Option.some.inj hset).symm

/-- No pointer to the descriptor is left if its statement gets back its own. -/
theorem Sound.afterFreeDesc (h : w.Sound) (hstmt : (w.heap (.explicit desc)).stmt = some stmt)
    (hard : w.ards stmt = some ard) :
    (w.afterFreeDesc desc stmt
      (if ard = .explicit desc then .implicit stmt .ard else ard)).Sound := by
  have halive : ∀ d, d ≠ desc → w.allocated d = true →
      Function.update w.allocated desc false d = true := by
    intro d hd halloc
    rwa [Function.update_of_ne hd]
  refine ⟨fun s r hr => ?_, fun r s hr hs => ?_⟩
  · change Function.update w.ards stmt _ s = some r at hr
    by_cases heq : s = stmt
    · rw [heq, Function.update_self] at hr
      obtain rfl := Option.some.inj hr
      rw [heq]
      split
      · exact .inl rfl
      · rename_i hne
        rcases h.active stmt ard hard with himp | ⟨d, rfl, halloc, hd⟩
        · exact .inl himp
        · exact .inr ⟨d, rfl, halive d (fun hd => hne (by rw [hd])) halloc, hd⟩
    · rw [Function.update_of_ne heq] at hr
      rcases h.active s r hr with himp | ⟨d, rfl, halloc, hd⟩
      · exact .inl himp
      · exact .inr ⟨d, rfl,
          halive d (fun hd => h.ards_ne_of_ne hstmt heq (by rw [hr, hd])) halloc, hd⟩
  · exact (afterFreeDesc_ards_ne_none_iff hard s).mpr
      (h.refers r s (live_afterFreeDesc hard hr) hs)

/-- A descriptor of a live statement that is freed. -/
theorem freeDesc_succeeds_iff (h : w.Sound) {desc : Nat} (hpos : w.allocated desc = true) :
    w.Succeeds (.freeDesc desc) ↔ w.Keeps (.freeDesc desc) := by
  cases hstmt : (w.heap (.explicit desc)).stmt with
  | none =>
    refine iff_of_false ?_ ?_
    · rintro ⟨w', hw', _⟩
      simp [exec, freeDesc, hstmt] at hw'
    · rintro ⟨stmt, hs, _⟩
      rw [hstmt] at hs
      cases hs
  | some stmt =>
    obtain ⟨ard, hard⟩ := Option.ne_none_iff_exists'.mp (h.refers (.explicit desc) stmt hpos hstmt)
    have hexec := exec_freeDesc hstmt hard
    rw [keeps_freeDesc_iff hstmt hard]
    constructor
    · rintro ⟨w', hw', _, hreturns⟩
      obtain rfl := Except.ok.inj (hexec.symm.trans hw')
      have hback := hreturns stmt ard hard
      change Function.update w.ards stmt _ stmt = _ at hback
      rw [Function.update_self] at hback
      exact Option.some.inj hback
    · intro hrestored
      rw [hrestored] at hexec
      refine ⟨_, hexec, h.afterFreeDesc hstmt hard, fun s r hr => ?_⟩
      change Function.update w.ards stmt _ s = _
      by_cases heq : s = stmt
      · subst heq
        rw [hard] at hr
        obtain rfl := Option.some.inj hr
        rw [Function.update_self]
      · rw [Function.update_of_ne heq, hr, if_neg]
        rintro rfl
        exact h.ards_ne_of_ne hstmt heq hr

end FreeDesc

theorem checkRowDesc_none {stmt : Nat} {desc : DescRef} (h : w.checkRowDesc stmt desc = none)
    {s : Nat} (hs : (w.heap desc).stmt = some s) : s = stmt := by
  unfold checkRowDesc at h
  split at h
  · cases h
  · rw [hs] at h
    simp only at h
    split at h
    · cases h
    · rename_i hno
      exact not_not.mp hno

/-- A descriptor that is set, or reset, to a statement. -/
theorem setRowDesc_succeeds_iff (h : w.Sound) {stmt : Nat} {desc : Option DescRef}
    (hpos : w.possible (.setRowDesc stmt desc) = true) :
    w.Succeeds (.setRowDesc stmt desc) ↔ w.Keeps (.setRowDesc stmt desc) := by
  have hlive : w.ards stmt ≠ none := by
    have hboth : (w.ards stmt).isSome = true ∧ desc.all w.live = true := by
      simpa [possible] using hpos
    exact Option.isSome_iff_ne_none.mp hboth.1
  cases desc with
  | none =>
    refine iff_of_true ⟨_, rfl, ?_, trivial⟩ nofun
    exact h.updateArd hlive (fun _ => .inl rfl) (fun _ _ _ _ => rfl) (.inl rfl)
  | some ref =>
    cases hcheck : w.checkRowDesc stmt ref with
    | some record =>
      have hexec : w.exec (.setRowDesc stmt (some ref)) = .ok w := by
        simp [exec, setRowDesc, hcheck]
      refine iff_of_true ⟨w, hexec, h, trivial⟩ fun r hr hnone => ?_
      obtain rfl := Option.some.inj hr
      rw [hcheck] at hnone
      cases hnone
    | none =>
      have hexec : w.exec (.setRowDesc stmt (some ref)) = .ok (w.setArdDesc stmt (some ref)) := by
        simp [exec, setRowDesc, hcheck]
      have hkeeps : w.Keeps (.setRowDesc stmt (some ref)) ↔
          (ref = .implicit stmt .ard ∨ ∃ d, ref = .explicit d) := by
        simp [Keeps, hcheck]
      rw [hkeeps]
      constructor
      · rintro ⟨w', hw', hsound, _⟩
        obtain rfl := Except.ok.inj (hexec.symm.trans hw')
        rcases hsound.active stmt ref (Function.update_self ..) with himp | ⟨d, hd, _⟩
        · exact .inl himp
        · exact .inr ⟨d, hd⟩
      · intro href
        refine ⟨_, hexec, ?_, trivial⟩
        have hset : ∀ r, r ≠ ref →
            ((w.heap.modify ref fun d => { d with type := .ard, stmt := some stmt }) r).stmt =
              (w.heap r).stmt := by
          intro r hr
          rw [DescHeap.modify, Function.update_of_ne hr]
        have hself : ((w.heap.modify ref fun d => { d with type := .ard, stmt := some stmt })
            ref).stmt = some stmt := by
          rw [DescHeap.modify, Function.update_self]
        refine h.updateArd hlive (fun r => ?_) (fun s d hs hactive => ?_) ?_
        · by_cases hr : r = ref
          · exact .inr (hr ▸ hself)
          · exact .inl (hset r hr)
        · apply hset
          rintro rfl
          exact hs (checkRowDesc_none hcheck (h.stmt_of_active hactive).2)
        · rcases href with himp | ⟨d, rfl⟩
          · exact .inl himp
          · refine .inr ⟨d, rfl, ?_, hself⟩
            have hboth : (w.ards stmt).isSome = true ∧ w.allocated d = true := by
              simpa [possible, live] using hpos
            exact hboth.2

/-- A copy. -/
theorem copyDesc_succeeds_iff (h : w.Sound) {src dst : DescRef}
    (hpos : w.possible (.copyDesc src dst) = true) :
    w.Succeeds (.copyDesc src dst) ↔ w.Keeps (.copyDesc src dst) := by
  have hsrc : w.live src = true := by
    have hboth : w.live src = true ∧ w.live dst = true := by simpa [possible] using hpos
    exact hboth.1
  by_cases htype : (w.heap dst).type = .ird
  · have hexec : w.exec (.copyDesc src dst) = .ok w := by
      simp [exec, DescHeap.internalCopyDesc, htype]
    exact iff_of_true ⟨w, hexec, h, trivial⟩ fun hne => absurd htype hne
  have hcopy : (w.heap.internalCopyDesc src dst).heap =
      Function.update w.heap dst (w.heap.copied src dst) := DescHeap.internalCopyDesc_eq htype
  have hexec : w.exec (.copyDesc src dst) =
      .ok { w with heap := Function.update w.heap dst (w.heap.copied src dst) } := by
    rw [exec, hcopy]
  have hdst : (Function.update w.heap dst (w.heap.copied src dst) dst).stmt =
      (w.heap src).stmt := by
    rw [Function.update_self]
    rfl
  constructor
  · rintro ⟨w', hw', hsound, _⟩ _ stmt hactive hne
    obtain rfl := Except.ok.inj (hexec.symm.trans hw')
    rcases hsound.active stmt dst hactive with himp | ⟨d, hd, _, hs⟩
    · exact absurd himp hne
    · rw [← hdst]
      rwa [← hd] at hs
  · intro hkeeps
    refine ⟨_, hexec, ⟨fun s r hr => ?_, fun r s hr hs => ?_⟩, trivial⟩
    · rcases h.active s r hr with rfl | ⟨d, rfl, halloc, hd⟩
      · exact .inl rfl
      · refine .inr ⟨d, rfl, halloc, ?_⟩
        by_cases heq : DescRef.explicit d = dst
        · change (Function.update w.heap dst (w.heap.copied src dst) (.explicit d)).stmt = some s
          rw [heq, hdst]
          exact hkeeps htype s (heq ▸ hr) (heq ▸ nofun)
        · change (Function.update w.heap dst (w.heap.copied src dst) (.explicit d)).stmt = some s
          rw [Function.update_of_ne heq, hd]
    · change (Function.update w.heap dst (w.heap.copied src dst) r).stmt = some s at hs
      by_cases heq : r = dst
      · rw [heq, hdst] at hs
        exact h.refers src s hsrc hs
      · rw [Function.update_of_ne heq] at hs
        exact h.refers r s hr hs

theorem succeeds_iff (h : w.Sound) {c : LinkCall} (hpos : w.possible c = true) :
    w.Succeeds c ↔ w.Keeps c := by
  cases c with
  | allocStmt stmt headers =>
    have hnew : w.ards stmt = none := by simpa [possible] using hpos
    exact iff_of_true ⟨_, rfl, allocStmt_sound h hnew headers, trivial⟩ trivial
  | freeStmt stmt => exact freeStmt_succeeds_iff h stmt
  | allocDesc desc header =>
    have hnew : w.allocated desc = false := by simpa [possible] using hpos
    exact iff_of_true ⟨_, rfl, allocDesc_sound h hnew header, trivial⟩ trivial
  | freeDesc desc => exact freeDesc_succeeds_iff h hpos
  | setRowDesc stmt desc => exact setRowDesc_succeeds_iff h hpos
  | copyDesc src dst => exact copyDesc_succeeds_iff h hpos

end Calls

/-! ## Runs -/

theorem start_sound (connection : Nat) (heap : DescHeap) : (start connection heap).Sound := by
  refine ⟨nofun, fun ref stmt hlive _ => ?_⟩
  cases ref <;> cases hlive

/-- The calls on a connection keep every link sound, and free every descriptor as they are to,
exactly when each possible call meets the condition. -/
theorem links_lawful_iff (connection : Nat) (heap : DescHeap) (calls : List LinkCall) :
    Lts.Each apply Lawful (some (start connection heap)) calls ↔
      Lts.Each apply Meets (some (start connection heap)) calls := by
  have hstep : ∀ w c, (∃ t, w = some t ∧ Sound t) → (Lawful w c ↔ Meets w c) := by
    rintro w c ⟨t, rfl, ht⟩
    simp only [Lawful, Meets, Option.some.injEq, exists_eq_left']
    exact imp_congr_right fun hpos => succeeds_iff ht hpos
  refine Lts.each_iff (I := fun w => ∃ t, w = some t ∧ Sound t) (fun w c hw hmeets => ?_) hstep
    ⟨_, rfl, start_sound connection heap⟩
  obtain ⟨t, rfl, ht⟩ := hw
  obtain ⟨t', ht', hlaw⟩ := (hstep (some t) c ⟨t, rfl, ht⟩).mpr hmeets
  obtain rfl := Option.some.inj ht'
  simp only [apply, Option.bind_some]
  split
  · rename_i hpos
    obtain ⟨w', hexec, hsound, _⟩ := hlaw hpos
    rw [hexec]
    exact ⟨w', rfl, hsound⟩
  · exact ⟨t, rfl, ht⟩

section Examples

def emptyConnection : Links := start 0 fun _ => {}

/-- Freeing a statement leaves the descriptor that was set to it with a dangling pointer; freeing
a descriptor that was never set follows a null pointer. -/
theorem links_dangle :
    ¬ Lts.Each apply Lawful (some emptyConnection)
        [.allocStmt 0 fun _ => {}, .allocDesc 0 {}, .setRowDesc 0 (some (.explicit 0)),
          .freeStmt 0] ∧
      ¬ Lts.Each apply Lawful (some emptyConnection) [.allocDesc 0 {}, .freeDesc 0] := by
  constructor
  · rintro ⟨_, _, _, ⟨t, ht, hlaw⟩, _⟩
    obtain rfl := Option.some.inj ht
    obtain ⟨w', hw', hsound, _⟩ := hlaw rfl
    obtain rfl := Except.ok.inj hw'
    exact hsound.refers (.explicit 0) 0 rfl rfl rfl
  · rintro ⟨_, ⟨t, ht, hlaw⟩, _⟩
    obtain rfl := Option.some.inj ht
    obtain ⟨w', hw', _⟩ := hlaw rfl
    cases hw'

end Examples

end Links

end TrinoOdbc
