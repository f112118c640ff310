import Proximity.Proofs.SignalWindow.History

/-! Looks at a window that does not grow. A look drops what is too old, and what is too old once is
too old ever after, so that no later answer depends on the looks in between. -/

namespace Proximity

theorem Reading.recent_recent {length length' now now' : Nanoseconds} (shorter : length' ≤ length)
    (later : now ≤ now') (readings : List Reading) :
    recent length' now' (recent length now readings) = recent length' now' readings := by
  rw [recent, recent, recent, List.filter_filter]
  refine List.filter_congr fun reading _ => ?_
  have young : now' - reading.time ≤ length' → now - reading.time ≤ length := fun young =>
    Nat.le_trans (Nat.le_trans (Nat.sub_le_sub_right later _) young) shorter
  by_cases recent : now' - reading.time ≤ length' <;> simp [recent, young]

namespace SignalWindow

/-- The actions that are no looks. -/
def orders (actions : List Action) : List Action := actions.filter (!·.isLook)

/-- The readings of the device that were ever added. -/
def everAdded (time : Nanoseconds) (actions : List Action) (device : String) : List Reading :=
  (List.range actions.length).filterMap (readingAt? time actions device)

/-- The window is never made longer than it was. -/
def Shrinks (length : Nanoseconds) (actions : List Action) : Prop :=
  (length :: actions.filterMap Action.length?).Pairwise fun earlier later => later ≤ earlier

instance (length : Nanoseconds) (actions : List Action) : Decidable (Shrinks length actions) :=
  inferInstanceAs (Decidable (List.Pairwise _ _))

variable {time length : Nanoseconds} {actions : List Action} {action : Action} {device : String}

theorem everAdded_concat : everAdded time (actions ++ [action]) device =
    everAdded time actions device ++
      (action.added? device).toList.map (⟨clock time actions, ·⟩) := by
  rw [everAdded, List.length_append, List.length_singleton, List.range_succ, List.filterMap_append]
  congr 1
  · exact List.filterMap_congr fun k early => readingAt?_concat (List.mem_range.mp early)
  · cases added : action.added? device <;> simp [readingAt?_length, added]

theorem orders_concat : orders (actions ++ [action]) =
    if action.isLook then orders actions else orders actions ++ [action] := by
  cases look : action.isLook <;> simp [orders, look]

theorem clock_orders : clock time (orders actions) = clock time actions := by
  induction actions using List.reverseRecOn with
  | nil => rfl
  | append_singleton actions action ih =>
    rw [orders_concat]
    unfold clock at ih ⊢
    cases action <;> simp_all [Action.isLook, Action.duration, ← Nat.add_assoc]

theorem filterMap_length?_orders :
    (orders actions).filterMap Action.length? = actions.filterMap Action.length? := by
  induction actions using List.reverseRecOn with
  | nil => rfl
  | append_singleton actions action ih =>
    rw [orders_concat]
    cases action <;> simp_all [Action.isLook, Action.length?]

theorem inForce_orders : inForce length (orders actions) = inForce length actions := by
  rw [inForce, filterMap_length?_orders, inForce]

theorem everAdded_orders :
    everAdded time (orders actions) device = everAdded time actions device := by
  induction actions using List.reverseRecOn with
  | nil => rfl
  | append_singleton actions action ih =>
    rw [orders_concat, everAdded_concat]
    split
    · rename_i look
      have silent : action.added? device = none := by
        cases action <;> simp_all [Action.isLook, Action.added?]
      rw [ih, silent, Option.toList_none, List.map_nil, List.append_nil]
    · rw [everAdded_concat, ih, clock_orders]

section SameOrders

variable {actions' : List Action} (same : orders actions = orders actions')

include same

theorem clock_eq_of_orders : clock time actions = clock time actions' := by
  rw [← clock_orders, same, clock_orders]

theorem inForce_eq_of_orders : inForce length actions = inForce length actions' := by
  rw [← inForce_orders, same, inForce_orders]

theorem everAdded_eq_of_orders :
    everAdded time actions device = everAdded time actions' device := by
  rw [← everAdded_orders, same, everAdded_orders]

theorem shrinks_iff_of_orders : Shrinks length actions ↔ Shrinks length actions' := by
  rw [Shrinks, Shrinks, ← filterMap_length?_orders, same, filterMap_length?_orders]

end SameOrders

theorem Shrinks.of_append {more : List Action} (shrinks : Shrinks length (actions ++ more)) :
    Shrinks length actions := by
  rw [Shrinks, List.filterMap_append, ← List.cons_append] at shrinks
  exact (List.pairwise_append.mp shrinks).1

theorem inForce_mem : inForce length actions ∈ length :: actions.filterMap Action.length? := by
  unfold inForce
  cases last : (actions.filterMap Action.length?).getLast? with
  | none => exact List.mem_cons_self
  | some length' => exact List.mem_cons_of_mem _ (List.mem_of_getLast? last)

theorem Shrinks.inForce_le (shrinks : Shrinks length (actions ++ [action])) :
    inForce length (actions ++ [action]) ≤ inForce length actions := by
  rw [Shrinks, List.filterMap_append, ← List.cons_append] at shrinks
  have ordered := (List.pairwise_append.mp shrinks).2.2 _ inForce_mem
  cases set : action.length? with
  | none => simp [inForce, set]
  | some length' =>
    have less := ordered length' (by simp [set])
    simpa [inForce, set] using less

theorem clock_le : clock time actions ≤ clock time (actions ++ [action]) := by
  simp [clock, ← Nat.add_assoc]

/-- In a window that does not grow, what counts later of all that was added is what counts of what
lasted. -/
theorem recent_survivors (shrinks : Shrinks length actions) {length' now' : Nanoseconds}
    (shorter : length' ≤ inForce length actions) (later : clock time actions ≤ now') :
    Reading.recent length' now' (survivors time length actions device) =
      Reading.recent length' now' (everAdded time actions device) := by
  induction actions using List.reverseRecOn with
  | nil => rfl
  | append_singleton actions action ih =>
    have before := ih shrinks.of_append (Nat.le_trans shorter shrinks.inForce_le)
      (Nat.le_trans clock_le later)
    rw [survivors_concat, everAdded_concat]
    split
    · rw [Reading.recent_recent (Nat.le_trans shorter shrinks.inForce_le)
        (Nat.le_trans clock_le later)]
      unfold Reading.recent at before ⊢
      rw [List.filter_append, List.filter_append, before]
    · rename_i ignored
      have silent : action.added? device = none := by
        cases action <;> simp_all [Action.judges, Action.added?]
      rw [silent, Option.toList_none, List.map_nil, List.append_nil, before]

theorem asks?_judges (asks : action.asks? = some device) : action.judges device := by
  cases action <;> cases asks <;> simp [Action.judges]

/-- What is averaged or counted in a window that does not grow is what is young enough of all that
was added. -/
theorem counted_of_shrinks (shrinks : Shrinks length actions) (asks : action.asks? = some device) :
    ((Session.start time length).run actions).counted action =
      Reading.recent (inForce length actions) (clock time actions)
        (everAdded time (actions ++ [action]) device) := by
  have before : Reading.recent _ _ (survivors time length actions device) = _ :=
    recent_survivors shrinks (Nat.le_refl _) (Nat.le_refl _)
  rw [counted_run asks, survivors_concat, if_pos (asks?_judges asks), everAdded_concat]
  unfold Reading.recent at before ⊢
  rw [List.filter_append, List.filter_append, before]

theorem counted_eq_nil (asks : action.asks? = none) (session : Session) :
    session.counted action = [] := by
  cases action <;> first | rfl | cases asks

/-- In two runs of a window that is never made longer, with the same orders but different looks
between them, every order has its counterpart, and whatever is added or looked at after the same
orders is averaged or counted alike. -/
theorem answer?_eq_of_same_orders {time length : Nanoseconds} {first second : List Action}
    (same : orders first = orders second) (shrinks : Shrinks length first) :
    (∀ before device rssi after, first = before ++ .add device rssi :: after →
      ∃ before' after', second = before' ++ .add device rssi :: after' ∧
        orders before = orders before') ∧
    ∀ action before after before' after', first = before ++ action :: after →
      second = before' ++ action :: after' → orders before = orders before' →
        let session := (Session.start time length).run before
        let session' := (Session.start time length).run before'
        session.counted action = session'.counted action ∧
          session.answer? action = session'.answer? action := by
  constructor
  · rintro before device rssi after rfl
    rw [orders, List.filter_append, List.filter_cons_of_pos (by rfl)] at same
    obtain ⟨front, back, rfl, frontSame, backSame⟩ := List.filter_eq_append_iff.mp same.symm
    obtain ⟨looks, after', rfl, isLook, -, -⟩ := List.filter_eq_cons_iff.mp backSame
    refine ⟨front ++ looks, after', by simp, ?_⟩
    have none : looks.filter (!·.isLook) = [] := List.filter_eq_nil_iff.mpr isLook
    rw [orders, orders, List.filter_append, frontSame, none, List.append_nil]
  · rintro action before after before' after' rfl rfl point
    have shrinksBefore : Shrinks length before := shrinks.of_append
    have shrinksBefore' : Shrinks length before' :=
      (shrinks_iff_of_orders point).mp shrinksBefore
    have counted : ((Session.start time length).run before).counted action =
        ((Session.start time length).run before').counted action := by
      cases asks : action.asks? with
      | none => rw [counted_eq_nil asks, counted_eq_nil asks]
      | some device =>
        rw [counted_of_shrinks shrinksBefore asks, counted_of_shrinks shrinksBefore' asks,
          everAdded_concat, everAdded_concat, inForce_eq_of_orders point, clock_eq_of_orders point,
          everAdded_eq_of_orders point]
    refine ⟨counted, ?_⟩
    cases action <;> simp only [Session.answer?, counted]

/-- The window is made shorter between two readings, and in one of the runs the first of them is
dropped before that. -/
theorem answer?_eq_of_same_orders_purged :
    let first : List Action :=
      [.add "a" (-80), .setLength 4, .advance 5, .setLength 2, .add "a" (-40)]
    let second : List Action :=
      [.add "a" (-80), .count "a", .setLength 4, .advance 5, .purge, .setLength 2, .average "b",
        .add "a" (-40), .count "a"]
    orders (first ++ [.average "a"]) = orders (second ++ [.average "a"]) ∧
      Shrinks 20 (first ++ [.average "a"]) ∧
      ((Session.start 0 20).run first).counted (.average "a") = [⟨5, -40⟩] ∧
      ((Session.start 0 20).run first).counted (.average "a") =
        ((Session.start 0 20).run second).counted (.average "a") ∧
      ((Session.start 0 20).run first).answer? (.average "a") =
        ((Session.start 0 20).run second).answer? (.average "a") := by
  intro first second
  have same : orders (first ++ [.average "a"]) = orders (second ++ [.average "a"]) := rfl
  have shrinks : Shrinks 20 (first ++ [.average "a"]) := by decide +kernel
  exact ⟨same, shrinks, by decide +kernel,
    (answer?_eq_of_same_orders same shrinks).2 _ _ _ _ _ rfl rfl rfl⟩

/-- A reading that was found too old stays away when the window is made longer. -/
example : ((Session.start 0 5).run [.add "a" (-80), .advance 6, .setLength 9]).counted
      (.average "a") = [⟨0, -80⟩] ∧
    ((Session.start 0 5).run [.add "a" (-80), .advance 6, .count "a", .setLength 9]).counted
      (.average "a") = [] := by
  decide +kernel

end SignalWindow

end Proximity
