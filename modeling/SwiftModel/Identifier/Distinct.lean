/- Names made distinct: a later name that clashes with an earlier one grows underscores. -/

namespace SwiftModel.Identifier

/-- The name with underscores behind it, at most `attempts` of them, until it is not in `used`. -/
def freshWithin (used : List String) : Nat → String → String
  | 0, name => name
  | attempts + 1, name =>
    if used.contains name then freshWithin used attempts (name.push '_') else name

/-- The name with the fewest underscores behind it that keep it out of `used`.
One underscore for each used name is always enough. -/
def fresh (used : List String) (name : String) : String :=
  freshWithin used used.length name

/-- Each name, kept apart from `used` and from the names before it. -/
def distinctFrom (used : List String) : List String → List String
  | [] => []
  | name :: names =>
    let chosen := fresh used name
    chosen :: distinctFrom (chosen :: used) names

/-- Each name, kept apart from the names before it; the first to use a name keeps it. -/
def distinct (names : List String) : List String := distinctFrom [] names

end SwiftModel.Identifier
