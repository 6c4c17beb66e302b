import BuildVariants.Proofs.Simulation.Execution

/-!
# What an operation ensures

`Operation.Ensures P x s Q E` is a triple: if the operation `x` starts in a world of `P`, then it
ends with a result and a world of `Q`, or it fails in a world of `E`.  An invariant of the program
is a triple with one predicate in all three places; what an operation has achieved is said in `Q`.

Most of what an operation does besides is to look around and to tell the user (`World.Tells`).  A
predicate that does not mind this is `World.Lasting`, and is carried past all such requests by one
rule.
-/

namespace BuildVariants

namespace Operation

variable {α β : Type} {s : Setting} {P P' E : World → Prop} {Q Q' : α → World → Prop}

/-- From a world of `P`, an operation ends in a world of `Q`, or fails in a world of `E`. -/
structure Ensures (P : World → Prop) (x : Operation Simulation α) (s : Setting)
    (Q : α → World → Prop) (E : World → Prop) : Prop where
  /-- What holds afterwards. -/
  after : ∀ w, P w → match x.exec s w with
    | (.ok a, w') => Q a w'
    | (.error _, w') => E w'

namespace Ensures

/-- A triple may ask for more beforehand and promise less.  What holds after a failure stays the
same, as no use of the triple ever weakens it. -/
theorem mono {x : Operation Simulation α} (h : Ensures P x s Q E) (pre : ∀ w, P' w → P w)
    (post : ∀ a w, Q a w → Q' a w) : Ensures P' x s Q' E := by
  constructor
  intro w hw
  have ensured := h.after w (pre w hw)
  split
  · next ok =>
    rw [ok] at ensured
    exact post _ _ ensured
  · next failed =>
    rw [failed] at ensured
    exact ensured

theorem pure {a : α} (h : ∀ w, P w → Q a w) : Ensures P (Pure.pure a) s Q E := ⟨h⟩

/-- A failure only has to keep what is promised of failures. -/
theorem throw {e : Failure} (h : ∀ w, P w → E w) :
    Ensures P (MonadExcept.throw e : Operation Simulation α) s Q E := ⟨h⟩

theorem diagnose {d : Diagnostic} (h : ∀ w, P w → E w) :
    Ensures P (Operation.diagnose d : Operation Simulation α) s Q E := ⟨h⟩

/-- What the first operation ensures of its result is what the second one starts from.  Both fail in
the same worlds. -/
theorem bind {R : α → World → Prop} {S : β → World → Prop} {x : Operation Simulation α}
    {f : α → Operation Simulation β} (hx : Ensures P x s R E)
    (hf : ∀ a, Ensures (R a) (f a) s S E) : Ensures P (x >>= f) s S E := by
  constructor
  intro w hw
  have ensured := hx.after w hw
  rcases result : x.exec s w with ⟨e | a, w'⟩
  · rw [exec_bind_of_error result]
    rw [result] at ensured
    exact ensured
  · rw [exec_bind_of_ok result]
    rw [result] at ensured
    exact (hf a).after w' ensured

/-- A request of the host does not fail, so nothing is to be shown of failures. -/
theorem ask {x : Simulation α} (h : ∀ w, P w → Q (x s w).1 (x s w).2) :
    Ensures P (Operation.ask x) s Q E := ⟨h⟩

/-- A postcondition that does not speak of the result is kept when the result is changed. -/
theorem map {R : World → Prop} {x : Operation Simulation α} (f : α → β)
    (h : Ensures P x s (fun _ => R) E) : Ensures P (f <$> x) s (fun _ => R) E := by
  rw [map_eq_pure_bind]
  exact h.bind fun a => pure fun w hw => hw

/-- A check that does not touch the world: it fails in the world in which it was made, or the rest
may rely on what it gave. -/
theorem ofExcept_bind {S : β → World → Prop} {r : Except Diagnostic α}
    {f : α → Operation Simulation β} (he : ∀ w, P w → E w)
    (h : ∀ a, r = .ok a → Ensures P (f a) s S E) :
    Ensures P (Operation.ofExcept r >>= f) s S E := by
  cases r with
  | error d => exact diagnose he
  | ok a => exact h a rfl

end Ensures

/-- A world of `I` is one afterwards, whether the operation fails or not. -/
abbrev Keeps (I : World → Prop) (x : Operation Simulation α) (s : Setting) : Prop :=
  Ensures I x s (fun _ => I) I

/-- An invariant holds of the world that is left behind, however the operation ended. -/
theorem Keeps.exec_snd {I : World → Prop} {x : Operation Simulation α} (h : Keeps I x s)
    {w : World} (hw : I w) : I (x.exec s w).2 := by
  have ensured := h.after w hw
  split at ensured
  · next ok => rwa [ok]
  · next failed => rwa [failed]

end Operation

/-! ## Telling -/

/-- Nothing has happened but that the program wrote something. -/
structure World.Tells (before after : World) : Prop where
  /-- The file tree is as before. -/
  tree : after.tree = before.tree
  /-- The program is where it was. -/
  cwd : after.cwd = before.cwd
  /-- Something was written. -/
  events : ∃ told : List Emission, after.events = before.events ++ told.map .emitted

namespace World.Tells

theorem refl (w : World) : World.Tells w w :=
  ⟨rfl, rfl, [], (List.append_nil _).symm⟩

/-- What is told in two stages is told in one. -/
theorem trans {u v w : World} (h : World.Tells u v) (k : World.Tells v w) : World.Tells u w := by
  obtain ⟨told, events⟩ := h.events
  obtain ⟨told', events'⟩ := k.events
  refine ⟨k.tree.trans h.tree, k.cwd.trans h.cwd, told ++ told', ?_⟩
  rw [events', events, List.map_append, List.append_assoc]

/-- One thing written is the least that can be told. -/
theorem record (w : World) (e : Emission) : World.Tells w (w.record (.emitted e)) :=
  ⟨rfl, rfl, [e], rfl⟩

/-- What is said of the events stays true if it does not mind one more thing written.  The induction
is on what was written. -/
theorem events_induction {w w' : World} (h : World.Tells w w') (P : List Event → Prop)
    (base : P w.events) (step : ∀ events e, P events → P (events ++ [.emitted e])) :
    P w'.events := by
  obtain ⟨told, events⟩ := h.events
  rw [events]
  clear events
  generalize w.events = past at base
  induction told generalizing past with
  | nil =>
    rw [List.map_nil, List.append_nil]
    exact base
  | cons e told ih =>
    rw [List.map_cons, List.append_cons]
    exact ih _ (step past e base)

end World.Tells

/-- A predicate that telling the user something does not change. -/
def World.Lasting (P : World → Prop) : Prop :=
  ∀ w w', World.Tells w w' → P w → P w'

/-- A request that does nothing but tell the user something. -/
def Simulation.Tells {α : Type} (x : Simulation α) : Prop :=
  ∀ s w, World.Tells w (x s w).2

namespace Simulation.Tells

variable {α : Type}

/-- A request that only looks around is one that tells nothing. -/
theorem of_looks {x : Simulation α} (h : x.Looks) : Tells x := by
  intro s w
  rw [h]
  exact .refl w

theorem debug (message : String) : Tells (Host.debug message : Simulation _) :=
  fun _ w => .record w _

/-- A status message is written or, by a quiet shell, left out. -/
theorem status (shell : Shell) (status : Status) (message : String) :
    Tells (Host.status shell status message : Simulation _) := by
  intro s w
  rw [status_apply]
  split
  · exact .refl w
  · exact .record w _

end Simulation.Tells

namespace Operation.Ensures

variable {α β : Type} {s : Setting} {P E : World → Prop} {Q : β → World → Prop}

/-- What lasts is there after a request that only tells something. -/
theorem ask_of_tells {x : Simulation α} (h : x.Tells) (lasting : World.Lasting P) :
    Ensures P (Operation.ask x) s (fun _ => P) E :=
  ⟨fun w hw => lasting w _ (h s w) hw⟩

/-- Whatever is seen, what held before a look holds after it. -/
theorem ask_of_looks {x : Simulation α} (h : x.Looks) :
    Ensures P (Operation.ask x) s (fun _ => P) E := by
  refine ask fun w hw => ?_
  rw [h s w]
  exact hw

/-- What lasts is there after a request that only tells something. -/
theorem tells_bind {x : Simulation α} {f : α → Operation Simulation β} (h : x.Tells)
    (lasting : World.Lasting P) (hf : ∀ a, Ensures P (f a) s Q E) :
    Ensures P (Operation.ask x >>= f) s Q E :=
  (ask_of_tells h lasting).bind hf

/-- Behind a look, what was seen is known of the world as it is. -/
theorem looks_bind {x : Simulation α} {f : α → Operation Simulation β} (h : x.Looks)
    (hf : ∀ a, Ensures (fun w => P w ∧ (x s w).1 = a) (f a) s Q E) :
    Ensures P (Operation.ask x >>= f) s Q E := by
  refine bind (R := fun a w => P w ∧ (x s w).1 = a) (ask fun w hw => ?_) hf
  rw [h s w]
  exact ⟨hw, rfl⟩

end Operation.Ensures

end BuildVariants
