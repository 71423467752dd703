import DateDisplay.Text

/-!
# The middle of a shortest edit path

Two texts `a` and `b` span a grid, where a step to the right deletes a byte of `a`, a step down
inserts a byte of `b`, and a diagonal step keeps a byte that both have.  A shortest path from
corner to corner is searched from both corners at once, by the number of edits.  Where the two
searches first meet, the path is cut in two.

The search is limited by the number of edits, which cannot be more than both texts together have
bytes, and not by time.

A frontier holds, for each diagonal, how far to the right its search has come, and `-1` where it
has not been.  Diagonals that have run off the grid are left out at either end.
-/

namespace DateDisplay

namespace Snake

/-- How far one of the two searches has come. -/
structure Frontier where
  reach : Array Int
  /-- how much of the lowest diagonals is left out -/
  low : Int
  /-- how much of the highest diagonals is left out -/
  high : Int

/-- How far the search has come on the diagonal at place `o`. -/
def Frontier.at (f : Frontier) (o : Int) : Int := f.reach.getD o.toNat (-1)

/-- The frontier before the first step: only the diagonal above the middle one is set. -/
def Frontier.start (half : Nat) : Frontier :=
  ⟨(Array.replicate (2 * half) (-1)).setIfInBounds (half + 1) 0, 0, 0⟩

/-- Goes on along a diagonal while the texts agree, at most `fuel` steps. -/
def advance (a b : Array UInt8) : Nat → Int → Int → Int
  | 0, x, _ => x
  | fuel + 1, x, y =>
    match a[x.toNat]?, b[y.toNat]? with
    | some c, some d =>
      if 0 ≤ x && 0 ≤ y && c == d then advance a b fuel (x + 1) (y + 1) else x
    | _, _ => x

/-- One search takes its `d`-th edit on every second diagonal from `k` up.  `meet` says whether
a point lies on the other frontier, and where to cut then. -/
def sweep (a b : Array UInt8) (half d : Int) (meet : Int → Int → Int → Option (Nat × Nat)) :
    Nat → Int → Frontier → Except (Nat × Nat) Frontier
  | 0, _, f => .ok f
  | fuel + 1, k, f =>
    if d - f.high < k then .ok f
    else
      let o := half + k
      let x₀ :=
        if k == -d || (k != d && f.at (o - 1) < f.at (o + 1)) then f.at (o + 1)
        else f.at (o - 1) + 1
      let x := advance a b (a.size + 1) x₀ (x₀ - k)
      let y := x - k
      let f := { f with reach := f.reach.setIfInBounds o.toNat x }
      if (a.size : Int) < x then
        sweep a b half d meet fuel (k + 2) { f with high := f.high + 2 }
      else if (b.size : Int) < y then
        sweep a b half d meet fuel (k + 2) { f with low := f.low + 2 }
      else
        match meet k x y with
        | some cut => .error cut
        | none => sweep a b half d meet fuel (k + 2) f

/-- Both searches by turns, from `d` edits on, for at most `fuel` edits more. -/
def search (a b : Array UInt8) (half : Nat) : Nat → Int → Frontier → Frontier → Option (Nat × Nat)
  | 0, _, _, _ => none
  | fuel + 1, d, front, back =>
    let n : Int := a.size
    let delta := n - b.size
    let odd := delta % 2 != 0
    let seen (o : Int) : Bool := 0 ≤ o && o < 2 * (half : Int)
    let meetBack (k x y : Int) : Option (Nat × Nat) :=
      let o := half + delta - k
      if odd && seen o && back.at o != -1 && n - back.at o ≤ x then some (x.toNat, y.toNat)
      else none
    match sweep a b half d meetBack (d.toNat + 1) (-d + front.low) front with
    | .error cut => some cut
    | .ok front =>
      let meetFront (k x _y : Int) : Option (Nat × Nat) :=
        let o := half + delta - k
        if !odd && seen o && front.at o != -1 then
          let x₁ := front.at o
          if n - x ≤ x₁ then some (x₁.toNat, (half + x₁ - o).toNat) else none
        else none
      match sweep a.reverse b.reverse half d meetFront (d.toNat + 1) (-d + back.low) back with
      | .error cut => some cut
      | .ok back => search a b half fuel (d + 1) front back

/-- Where to cut the two texts, if the searches meet at all. -/
def cut? (a b : Text) : Option (Nat × Nat) :=
  let half := (a.length + b.length + 1) / 2
  search a.toArray b.toArray half half 0 (.start half) (.start half)

end Snake

end DateDisplay
