import Mathlib.Data.List.Infix

/-!
# Paths with dot segments

A path is followed from a directory: a name goes down, two dots go up, and at the root
they stay.  What a relative path does to any directory is to go up some levels and then
down along some names, so whether it leaves a directory depends on these levels and names
only.
-/

namespace TimeGANWebServer.Support

universe u

/-- What one segment of a path does. -/
inductive Move (Name : Type u) where
  | stay
  | up
  | down (name : Name)
  deriving DecidableEq, Repr

/-- A directory, as the names that lead to it from the root. -/
abbrev Directory (Name : Type u) := List Name

variable {Name : Type u}

/-- Make one move from a directory. -/
def Move.apply (directory : Directory Name) : Move Name → Directory Name
  | .stay => directory
  | .up => directory.dropLast
  | .down name => directory ++ [name]

/-- Follow a path from a directory. -/
def follow (directory : Directory Name) (moves : List (Move Name)) : Directory Name :=
  moves.foldl Move.apply directory

/-- What a path comes to: some levels up, and then down along some names. -/
structure Route (Name : Type u) where
  ups : Nat
  downs : List Name
  deriving DecidableEq, Repr

/-- Make one move more.  Going up undoes the last name, if there is one. -/
def Route.move (route : Route Name) : Move Name → Route Name
  | .stay => route
  | .up =>
      if route.downs = [] then
        { route with ups := route.ups + 1 }
      else
        { route with downs := route.downs.dropLast }
  | .down name => { route with downs := route.downs ++ [name] }

/-- The route of a path. -/
def routeOf (moves : List (Move Name)) : Route Name :=
  moves.foldl Route.move { ups := 0, downs := [] }

/-- Where a route leads. -/
def Route.target (directory : Directory Name) (route : Route Name) : Directory Name :=
  directory.take (directory.length - route.ups) ++ route.downs

theorem follow_append (directory : Directory Name) (first second : List (Move Name)) :
    follow directory (first ++ second) = follow (follow directory first) second :=
  List.foldl_append

/-- One move more, from where a route leads. -/
theorem Route.apply_target (directory : Directory Name) (route : Route Name) (move : Move Name) :
    move.apply (route.target directory) = (route.move move).target directory := by
  cases move with
  | stay => rfl
  | down name => simp [Move.apply, Route.move, Route.target]
  | up =>
      simp only [Move.apply, Route.move, Route.target]
      split
      case isTrue none =>
          have levels : min ((directory.take (directory.length - route.ups)).length - 1)
              (directory.length - route.ups) = directory.length - (route.ups + 1) := by
            rw [List.length_take]
            omega
          rw [none, List.append_nil, List.append_nil, List.dropLast_eq_take, List.take_take, levels]
      case isFalse some_ => rw [List.dropLast_append_of_ne_nil some_]

/-- Following a path leads where its route leads. -/
theorem follow_eq_target (directory : Directory Name) (moves : List (Move Name)) :
    follow directory moves = (routeOf moves).target directory := by
  have general : ∀ route : Route Name,
      follow (route.target directory) moves = (moves.foldl Route.move route).target directory := by
    induction moves with
    | nil => exact fun route => rfl
    | cons move moves ih =>
        intro route
        have first := Route.apply_target directory route move
        simp only [follow, List.foldl_cons, first]
        exact ih (route.move move)
  have start : ({ ups := 0, downs := [] } : Route Name).target directory = directory := by
    simp [Route.target]
  have from_ := general { ups := 0, downs := [] }
  rwa [start] at from_

/-- A route stays below a directory if it comes back down along the names it went up. -/
def Route.Returns (directory : Directory Name) (route : Route Name) : Prop :=
  directory.drop (directory.length - route.ups) <+: route.downs

instance [DecidableEq Name] (directory : Directory Name) (route : Route Name) :
    Decidable (route.Returns directory) :=
  inferInstanceAs (Decidable (_ <+: _))

/-- A path leads below a directory exactly if its route returns. -/
theorem prefix_follow_iff (directory : Directory Name) (moves : List (Move Name)) :
    directory <+: follow directory moves ↔ (routeOf moves).Returns directory := by
  rw [follow_eq_target, Route.target, Route.Returns]
  have parts := List.take_append_drop (directory.length - (routeOf moves).ups) directory
  constructor
  · intro below
    rw [← List.prefix_append_right_inj
      (directory.take (directory.length - (routeOf moves).ups)), parts]
    exact below
  · intro returns
    rw [← List.prefix_append_right_inj
      (directory.take (directory.length - (routeOf moves).ups)), parts] at returns
    exact returns

/-- A path that does not go up returns. -/
theorem Route.returns_of_ups_eq_zero (directory : Directory Name) {route : Route Name}
    (level : route.ups = 0) : route.Returns directory := by
  simp [Route.Returns, level]

end TimeGANWebServer.Support
