import TagSim.Epoll.History
import TagSim.Runs.Proofs.SilentProofs

/-!
# What an observation adds to a history

The observations of `epoll_ctl` and of an accepted send, and those that are `Inert`: they change neither
what is registered nor where the last accepted send goes.
-/

namespace TagSim.Epoll

section Observations

variable (fd fd' : Fd) (events : EventMask) (ok : Bool) (data : List Byte) (h : List Obs)

@[simp] theorem registered_add : registered fd (.ctl .add fd' events true :: h) =
    (decide (fd' = fd) || registered fd h) := by
  simp [registered]

@[simp] theorem registered_mod : registered fd (.ctl .mod fd' events ok :: h) = registered fd h := rfl

@[simp] theorem registered_del : registered fd (.ctl .del fd' events ok :: h) = registered fd h := rfl

@[simp] theorem registered_closed :
    registered fd (.closed fd' :: h) = (decide (fd' ≠ fd) && registered fd h) := rfl

@[simp] theorem registered_sendReturned (ret : Int) :
    registered fd (.sendReturned fd' data ret :: h) = registered fd h := rfl

@[simp] theorem destination_ctl (op : CtlOp) : destination (.ctl op fd events ok :: h) = destination h := rfl

@[simp] theorem destination_closed : destination (.closed fd :: h) = destination h := rfl

@[simp] theorem destination_accepted : destination (.sendReturned fd data 0 :: h) = some fd := rfl

@[simp] theorem destinationClosed_ctl (op : CtlOp) :
    destinationClosed (.ctl op fd events ok :: h) = destinationClosed h := rfl

@[simp] theorem destinationClosed_closed : destinationClosed (.closed fd :: h) =
    (decide (destination h = some fd) || destinationClosed h) := rfl

@[simp] theorem moves_opened (kind : FileKind) : moves (.opened fd kind :: h) = .acquire fd :: moves h := rfl

@[simp] theorem moves_closed : moves (.closed fd :: h) = .release fd :: moves h := rfl

@[simp] theorem moves_ctl (op : CtlOp) : moves (.ctl op fd events ok :: h) = moves h := rfl

@[simp] theorem moves_sendReturned (ret : Int) : moves (.sendReturned fd data ret :: h) = moves h := rfl

end Observations

/-- Observations that concern neither a descriptor of the process nor an accepted send. -/
def Obs.Inert : Obs → Prop
  | .opened .. | .closed .. | .ctl .. => False
  | .sendReturned _ _ ret => ret ≠ 0
  | _ => True

/-- Two histories that say the same about registrations and about the last accepted send. -/
structure SameRecords (h h' : List Obs) : Prop where
  registered : ∀ fd, registered fd h' = registered fd h
  destination : destination h' = destination h
  destinationClosed : destinationClosed h' = destinationClosed h

theorem SameRecords.refl (h : List Obs) : SameRecords h h := ⟨fun _ => rfl, rfl, rfl⟩

theorem SameRecords.trans {h₁ h₂ h₃ : List Obs} (h₁₂ : SameRecords h₁ h₂) (h₂₃ : SameRecords h₂ h₃) :
    SameRecords h₁ h₃ :=
  ⟨fun fd => (h₂₃.registered fd).trans (h₁₂.registered fd), h₂₃.destination.trans h₁₂.destination,
    h₂₃.destinationClosed.trans h₁₂.destinationClosed⟩

theorem sameRecords_cons (o : Obs) (h : List Obs) (ho : o.Inert) : SameRecords h (o :: h) := by
  cases o with
  | sendReturned socket data ret =>
    have hret : ret ≠ 0 := ho
    exact ⟨fun _ => rfl, by simp [destination, hret], by simp [destinationClosed, hret]⟩
  | opened | closed | ctl => exact ho.elim
  | _ => exact ⟨fun _ => rfl, rfl, rfl⟩

theorem sameRecords_opened (fd : Fd) (kind : FileKind) (h : List Obs) :
    SameRecords h (.opened fd kind :: h) :=
  ⟨fun _ => rfl, rfl, rfl⟩

/-- Inert observations say nothing about registrations. -/
theorem sameRecords_append {pre : List Obs} (hpre : ∀ o ∈ pre, o.Inert) (h : List Obs) :
    SameRecords h (pre ++ h) :=
  append_related .refl .trans sameRecords_cons hpre h

/-- Inert observations move no descriptor. -/
theorem moves_append {pre : List Obs} (hpre : ∀ o ∈ pre, o.Inert) (h : List Obs) :
    moves (pre ++ h) = moves h := by
  have hnone : pre.filterMap Obs.move = [] := by
    rw [List.filterMap_eq_nil_iff]
    intro o ho
    have hinert := hpre o ho
    cases o with
    | opened | closed => exact hinert.elim
    | _ => rfl
  rw [moves, List.filterMap_append, hnone, List.nil_append, moves]

end TagSim.Epoll
