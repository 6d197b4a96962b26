import BoxQP.Inequality

/-!
# Calls by named arguments

What a caller hands over by name: the settings of a configuration, an own step budget, the arguments of a
problem, and names that no call takes. The configuration comes first, then the unknown names, then the
budget, and the arguments last.
-/

namespace BoxQP

inductive CallFault (α : Type) where
  | config (f : ConfigFault α)
  | unknownName (name : String)
  | input (f : Fault)

variable {α : Type}

def CallFault.message [TextForm α] : CallFault α → Option String
  | .config f => f.message
  | .unknownName _ => none
  | .input f => f.message

namespace CallFault

def ofConfig {β : Type} (r : Except (ConfigFault α) β) : Except (CallFault α) β := r.mapError .config

def ofInput {β : Type} (r : Except Fault β) : Except (CallFault α) β := r.mapError .input

end CallFault

/-- The options of a solve; a null budget leaves the one of the configuration. -/
structure SolveOptions (α : Type) where
  start : Literal α
  bound : Literal α
  maxSteps : Setting α
  tracked : Bool
  unknown : List String

variable [Arith α] [TextForm α]

/-- Solves under a finished configuration. -/
def SolveOptions.solve? (o : SolveOptions α) (c : Config α) (Q h : Literal α) :
    Except (CallFault α) (Config α × (n : Nat) × Solution α n) := do
  match o.unknown with
  | name :: _ => .error (.unknownName name)
  | [] =>
    let c ← match o.maxSteps with
      | .null => .ok c
      | v => CallFault.ofConfig (c.replace? [("max_steps", v)])
    let s ← CallFault.ofInput
      (({ Q, h, start := o.start, bound := o.bound } : Statement α).solve? c o.tracked)
    .ok (c, s)

namespace Inequality

/-- Solves the dual and recovers the point from its multipliers. -/
def solve? (a : Statement α) (b : Literal α) (o : SolveOptions α) (c : Config α) :
    Except (CallFault α) (Config α × Solution α) := do
  let ⟨_, q⟩ ← CallFault.ofInput (dual? a b)
  let (c, dual) ← o.solve? c (.array (Tensor.ofMat q.Q)) (.array (Tensor.ofVec q.h))
  let ⟨n, z⟩ ← CallFault.ofInput (recover? a (.array (Tensor.ofVec dual.2.x)))
  .ok (c, { n, z, dual })

end Inequality

end BoxQP
