import AdminPlane.CommandLine.Basic

namespace AdminPlane

theorem bind_ok {ε α β : Type} {x : Except ε α} {f : α → Except ε β} {b : β} :
    x >>= f = .ok b ↔ ∃ a, x = .ok a ∧ f a = .ok b := by
  cases x with
  | error e =>
    constructor
    · exact nofun
    · rintro ⟨a, ha, _⟩
      cases ha
  | ok a =>
    constructor
    · exact fun h => ⟨a, rfl, h⟩
    · rintro ⟨_, ⟨⟩, h⟩
      exact h

end AdminPlane

namespace AdminPlane.CommandLine

/-- At the end of a level the environment has a say in which fault is shown, and no other. -/
theorem Reading.close_ok {l : Level} {r : Reading} {environment : Option String} {hasChild : Bool}
    {e : Entry} (h : r.close l environment hasChild = .ok e) (other : Option String) :
    r.close l other hasChild = .ok e := by
  obtain ⟨settled, hsettled, h⟩ := bind_ok.mp h
  refine bind_ok.mpr ⟨settled, hsettled, ?_⟩
  by_cases hchild : l.needsChild ∧ ¬ hasChild
  · simp only [if_pos hchild] at h
    cases h
  · simp only [if_neg hchild] at h ⊢
    exact h

theorem read_ok {environment : Option String} {l : Level} {r : Reading} {words : List String}
    {entries : List Entry} (h : read environment l r words = .ok entries) (other : Option String) :
    read other l r words = .ok entries := by
  induction words generalizing l r entries with
  | nil =>
    rw [read] at h ⊢
    obtain ⟨e, hclose, h⟩ := bind_ok.mp h
    exact bind_ok.mpr ⟨e, Reading.close_ok hclose other, h⟩
  | cons word rest ih =>
    have htake : ∀ {found}, (do read environment l (← r.take l word) rest) = .ok found →
        (do read other l (← r.take l word) rest) = .ok found := by
      intro found h
      obtain ⟨taken, htaken, h⟩ := bind_ok.mp h
      exact bind_ok.mpr ⟨taken, htaken, ih h⟩
    rw [read] at h ⊢
    split at h
    · rename_i hvalue
      rw [if_pos hvalue]
      exact htake h
    · rename_i hvalue
      rw [if_neg hvalue]
      split at h
      · cases h
      · rename_i hhelp
        rw [if_neg hhelp]
        cases hchild : l.child? word with
        | none =>
          rw [hchild] at h
          exact htake h
        | some child =>
          rw [hchild] at h
          obtain ⟨below, hbelow, h⟩ := bind_ok.mp h
          obtain ⟨e, hclose, h⟩ := bind_ok.mp h
          exact bind_ok.mpr ⟨below, ih hbelow, bind_ok.mpr ⟨e, Reading.close_ok hclose other, h⟩⟩

/-- What a command line says on a node does not depend on the environment, whose key stands beside
it. -/
theorem ofWords_node {environment : Option String} {words : List String} {logs : LogOptions}
    {o : NodeOptions}
    (h : Invocation.ofWords environment words = .ok ⟨logs, .node o⟩) :
    ∃ g, Invocation.ofWords none words = .ok ⟨logs, .node g⟩ ∧
      o = { g with environmentKey := environment } := by
  obtain ⟨entries, hread, h⟩ := bind_ok.mp h
  cases hcommand : Command.ofEntries? environment entries with
  | none =>
    rw [hcommand] at h
    cases h
  | some command =>
    rw [hcommand] at h
    cases h
    unfold Command.ofEntries? at hcommand
    split at hcommand
    · cases hcommand
      exact ⟨_, bind_ok.mpr ⟨_, read_ok hread none, rfl⟩, rfl⟩
    · obtain ⟨operation, _, h⟩ := Option.bind_eq_some_iff.mp hcommand
      cases h
    · cases hcommand

end AdminPlane.CommandLine
