namespace Mxid

inductive Scope where
  | none
  | tenant (id : Int)
  | all

namespace Scope

def usable : Scope → Bool
  | .none => false
  | .tenant id => 0 < id
  | .all => true

def sees : Scope → Int → Bool
  | .none, _ => false
  | .tenant id, tenantID => id = tenantID
  | .all, _ => true

variable {σ α : Type}

def ask (scope : Scope) (s : σ) (reply : α) : Option α × σ :=
  (if scope.usable then some reply else Option.none, s)

def tell (scope : Scope) (s : σ) (reply : α) (s' : σ) : Option α × σ :=
  if scope.usable then (some reply, s') else (Option.none, s)

theorem tell_snd {scope : Scope} {s s' : σ} {reply : α} :
    (scope.tell s reply s').2 = if scope.usable then s' else s := by
  unfold tell
  split <;> rfl

end Scope

end Mxid
