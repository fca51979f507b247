import MC68000.Machine.Run
import MC68000.Proofs.Effects

set_option autoImplicit false

namespace MC68000

variable {World : Type}

/-- What connects a processor to the world. -/
structure Wiring (World : Type) where
  memory : MemoryMap World
  hooks : Hooks World
  logger : LogRecord → World → World

/-- What a machine can do to the world, one thing at a time. -/
inductive Wiring.Touch (wiring : Wiring World) (host : Host World) : Host World → Prop
  | cycle (b : BusCycle) (aligned : b.Aligned) : Touch wiring host (wiring.memory.perform b host)
  | record (record : LogRecord) :
      Touch wiring host { host with world := wiring.logger record host.world }
  | reset {hook : Host World → Host World} (present : wiring.hooks.reset = some hook) :
      Touch wiring host (hook host)
  | acknowledge {hook : Fin 8 → Host World → Host World}
      (present : wiring.hooks.acknowledge = some hook) (level : Fin 8) :
      Touch wiring host (hook level host)
  | vector {hook : VectorHook World} {vector : VectorNumber}
      (present : wiring.hooks.vectors vector = some hook) (r : Registers) :
      Touch wiring host (hook vector r host).2

namespace Machine

def wiring (m : Machine World) : Wiring World := ⟨m.memory, m.hooks, m.logger⟩

/-- One machine is what another may become by running. The wiring stays the same, and the world is touched
only through it. -/
structure Evolves (m m' : Machine World) : Prop where
  wiring : m'.wiring = m.wiring
  host : Relation.ReflTransGen m.wiring.Touch m.host m'.host

theorem Evolves.refl (m : Machine World) : m.Evolves m := ⟨rfl, .refl⟩

theorem Evolves.trans {m m' m'' : Machine World} (first : m.Evolves m') (second : m'.Evolves m'') :
    m.Evolves m'' := by
  refine ⟨second.wiring.trans first.wiring, first.host.trans ?_⟩
  rw [← first.wiring]
  exact second.host

theorem Evolves.inside {m m' : Machine World} (wiring : m'.wiring = m.wiring)
    (host : m'.host = m.host) : m.Evolves m' := ⟨wiring, host ▸ .refl⟩

theorem Evolves.hooks {m m' : Machine World} (h : m.Evolves m') : m'.hooks = m.hooks :=
  congrArg Wiring.hooks h.wiring

theorem Evolves.memory {m m' : Machine World} (h : m.Evolves m') : m'.memory = m.memory :=
  congrArg Wiring.memory h.wiring

/-- What every touch preserves, running preserves. -/
theorem Evolves.invariant {m m' : Machine World} {p : Host World → Prop} (h : m.Evolves m')
    (touch : ∀ host host', m.wiring.Touch host host' → p host → p host') (start : p m.host) :
    p m'.host := by
  have along (host : Host World) (reached : Relation.ReflTransGen m.wiring.Touch m.host host) :
      p host := by
    induction reached with
    | refl => exact start
    | tail _ last ih => exact touch _ _ last ih
  exact along m'.host h.host

theorem evolves_log (m : Machine World) (record : LogRecord) : m.Evolves (m.log record) :=
  ⟨rfl, .single (.record record)⟩

theorem Effects.evolves {m m' : Machine World} (h : m.Effects m') : m.Evolves m' := by
  induction h with
  | refl => exact .refl m
  | tail _ last ih =>
    refine ih.trans ?_
    cases last with
    | registers => exact .inside rfl rfl
    | cycle b aligned => exact ⟨rfl, .single (.cycle b aligned)⟩

theorem evolves_apply (m : Machine World) (change : SupervisorChange) :
    m.Evolves (change.apply m) := by
  cases change with
  | registers f => exact .inside rfl rfl
  | reset =>
    unfold SupervisorChange.apply
    cases found : m.hooks.reset with
    | none => exact .refl m
    | some hook => exact ⟨rfl, .single (.reset found)⟩
  | stop status =>
    have written : m.Evolves (m.mapRegisters (·.setStatus status)) := .inside rfl rfl
    exact (written.trans (evolves_log _ _)).trans (.inside rfl rfl)

theorem evolves_callAcknowledge (m : Machine World) (level : Fin 8) :
    m.Evolves (m.callAcknowledge level) := by
  unfold callAcknowledge
  cases found : m.hooks.acknowledge with
  | none => exact .refl m
  | some hook => exact ⟨rfl, .single (.acknowledge found level)⟩

end Machine

end MC68000
