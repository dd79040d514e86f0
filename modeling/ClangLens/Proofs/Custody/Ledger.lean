import ClangLens.Proofs.Running

/-!
# The ledger of what was handed out

Every call names the things it is handed and, with its answer, the things it hands out to us. From
a trace one reads what was handed out, what was released, and what belongs to what. A trace is
stacked if every call is handed only what is held at the moment and every release is of what was
handed out last. Where no handle is handed out twice, a stacked trace is guarded: nothing is used or
released that is not held, and what belongs to something is released before it. If nothing is held
in the end, it is settled: everything was released exactly once.
-/

namespace ClangLens

open Dialogue (Exchange)

/-! ## What a call is about -/

/-- Whether there is something to release. A text counts even if it has no data. -/
def Resource.isReal : Resource → Bool
  | .index i => i.isSome
  | .action a => a.isSome
  | _ => true

/-- Whether there is a handle to know it by. -/
def Resource.hasHandle : Resource → Bool
  | .index i => i.isSome
  | .action a => a.isSome
  | .string s => s.isSome
  | _ => true

theorem Resource.isReal_of_hasHandle {r : Resource} (h : r.hasHandle) : r.isReal := by
  cases r <;> first | exact h | rfl

def DiagnosticOwner.resource : DiagnosticOwner → Resource
  | .unit u => .unit u
  | .completions set => .completions set

def FixItOwner.resource : FixItOwner → Resource
  | .diagnostic d => .diagnostic d
  | .completion set _ => .completions set

def TextQuestion.arguments : TextQuestion → List Resource
  | .unitSpelling u => [.unit u]
  | .diagnosticSpelling d | .diagnosticFormat d _ | .diagnosticCategory d => [.diagnostic d]
  | .containerUsr set | .objCSelector set => [.completions set]
  | _ => []

def NumberQuestion.arguments : NumberQuestion → List Resource
  | .globalOptions i => [.index i]
  | .reparseOptions u | .saveOptions u | .unitDiagnostics u => [.unit u]
  | .severity d | .diagnosticRanges d | .diagnosticFixIts d => [.diagnostic d]
  | .completionDiagnostics set | .completionFixIts set _ => [.completions set]
  | _ => []

def CursorQuestion.arguments : CursorQuestion → List Resource
  | .ofUnit u => [.unit u]
  | _ => []

def LocationQuestion.arguments : LocationQuestion → List Resource
  | .inFile u .. => [.unit u]
  | .ofDiagnostic d => [.diagnostic d]
  | _ => []

def ExtentQuestion.arguments : ExtentQuestion → List Resource
  | .ofDiagnostic d _ => [.diagnostic d]
  | .ofCursor _ => []

/-- The things to be released that a call is handed. -/
def Call.arguments : Call → List Resource
  | .setGlobalOptions i _ | .createAction i => [.index i]
  | .parse i .. => [.index i]
  | .reparse u .. | .save u .. | .fileNamed u _ | .complete u .. => [.unit u]
  | .diagnostic owner _ => [owner.resource]
  | .diagnosticOption d => [.diagnostic d]
  | .fixIt owner _ => [owner.resource]
  | .results set | .contexts set | .container set => [.completions set]
  | .sortResults array _ => array.toList.map .completions
  | .index a u _ => [.action a, .unit u]
  | .text q => q.arguments
  | .number q => q.arguments
  | .cursor q => q.arguments
  | .location q => q.arguments
  | .extent q => q.arguments
  | .stringBytes s => [.string s]
  | .release r => [r]
  | _ => []

/-- The things to be released that a call hands out, the first to be released first. -/
def Call.handedOut : (c : Call) → c.Answer → List Resource
  | .createIndex .., i => [.index i].filter Resource.isReal
  | .parse .., answer => answer.unit.toList.map .unit
  | .createAction _, a => [.action a].filter Resource.isReal
  | .diagnostic .., d => d.toList.map .diagnostic
  | .complete .., set => set.toList.map .completions
  | .text _, s => [.string s]
  | .diagnosticOption _, (enable, disable) => [.string enable, .string disable]
  | .fixIt .., answer => [.string answer.replacement]
  | _, _ => []

/-- What a call releases. -/
def Call.released? : Call → Option Resource
  | .release r => some r
  | _ => none

/-! ## Reading a trace -/

namespace Trace

/-- Everything that was handed out, in order. -/
def handedOut (t : List Exchange) : List Resource := t.flatMap fun x => x.1.handedOut x.2

/-- Everything that was released, in order. -/
def releases (t : List Exchange) : List Resource := t.filterMap fun x => x.1.released?

/-- What a call hands out belongs to what the call is handed. -/
def Belongs (t : List Exchange) (child owner : Resource) : Prop :=
  ∃ x ∈ t, child ∈ x.1.handedOut x.2 ∧ owner ∈ x.1.arguments

/-- No handle is handed out twice. -/
def Fresh (t : List Exchange) : Prop := ((handedOut t).filter Resource.hasHandle).Nodup

instance (t : List Exchange) : Decidable (Fresh t) := inferInstanceAs (Decidable (List.Nodup _))

/-- Nothing is used or released that is not held, and an owner is released last. -/
structure Guarded (t : List Exchange) : Prop where
  unused_after_release : ∀ before x after, t = before ++ x :: after →
    ∀ r ∈ x.1.arguments, r.hasHandle → r ∉ releases before
  handed_out_before_release : ∀ before r done after, t = before ++ ⟨.release r, done⟩ :: after →
    r.hasHandle → r ∈ handedOut before
  owner_released_last : ∀ before owner done after,
    t = before ++ ⟨.release owner, done⟩ :: after →
      ∀ child, owner.hasHandle → Belongs t child owner → child ∈ releases before

/-- Everything that was handed out is released exactly once, and texts without data as often as they
were handed out. -/
structure Settled (t : List Exchange) : Prop where
  released_once : ∀ r ∈ handedOut t, r.hasHandle → (releases t).count r = 1
  blanks_released :
    (releases t).count (.string none) = (handedOut t).count (.string none)

@[simp] theorem handedOut_append (a b : List Exchange) :
    handedOut (a ++ b) = handedOut a ++ handedOut b := List.flatMap_append

@[simp] theorem handedOut_cons (x : Exchange) (t : List Exchange) :
    handedOut (x :: t) = x.1.handedOut x.2 ++ handedOut t := List.flatMap_cons

@[simp] theorem releases_append (a b : List Exchange) :
    releases (a ++ b) = releases a ++ releases b := List.filterMap_append

@[simp] theorem releases_cons (x : Exchange) (t : List Exchange) :
    releases (x :: t) = x.1.released?.toList ++ releases t := by
  unfold releases
  rw [List.filterMap_cons]
  cases x.1.released? <;> rfl

theorem Fresh.count_le_one {t : List Exchange} (h : Fresh t) {r : Resource} (hr : r.hasHandle) :
    (handedOut t).count r ≤ 1 := by
  have hc := List.nodup_iff_count.mp h r
  rwa [List.count_filter hr] at hc

end Trace

end ClangLens
