/-!
# Texts within texts

`contains` is the plain question whether one text stands somewhere in another, by
comparison of characters.
-/

namespace Tabula.Text

/-- Whether the second text begins the first. -/
def startsWith : List Char → List Char → Bool
  | _, [] => true
  | [], _ :: _ => false
  | c :: cs, d :: ds => c == d && startsWith cs ds

/-- Whether the second text stands somewhere in the first. -/
def contains : List Char → List Char → Bool
  | [], needle => needle.isEmpty
  | c :: cs, needle => startsWith (c :: cs) needle || contains cs needle

theorem startsWith_iff {cs ds : List Char} : startsWith cs ds = true ↔ ds <+: cs := by
  induction ds generalizing cs with
  | nil => simp [startsWith]
  | cons d ds ih =>
    cases cs with
    | nil => simp [startsWith]
    | cons c cs => simp [startsWith, ih, List.cons_prefix_cons, eq_comm (a := c)]

theorem contains_iff {cs ds : List Char} : contains cs ds = true ↔ ds <:+: cs := by
  induction cs with
  | nil => simp [contains]
  | cons c cs ih => simp [contains, ih, startsWith_iff, List.infix_cons_iff]

end Tabula.Text
