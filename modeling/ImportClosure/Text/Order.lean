import ImportClosure.Text.Basic
/-!
The order of texts.

One text stands before another if it has the smaller code point at the first place where they
differ, or if it ends there. This is a strict total order.
-/

namespace ImportClosure.Text

/-- `t` stands before `u`. -/
def isBefore : Text → Text → Bool
  | _, [] => false
  | [], _ :: _ => true
  | c :: cs, d :: ds => if c = d then isBefore cs ds else decide (c.val < d.val)

/-- No text stands before itself. -/
theorem isBefore_self {t : Text} : isBefore t t = false := by
  induction t with
  | nil => rfl
  | cons c cs ih => simp [isBefore, ih]

/-- The order is transitive. -/
theorem isBefore_trans {t u v : Text} (htu : isBefore t u = true) (huv : isBefore u v = true) :
    isBefore t v = true := by
  induction t generalizing u v with
  | nil =>
    cases v with
    | nil => cases u <;> simp [isBefore] at huv
    | cons e es => rfl
  | cons c cs ih =>
    cases u with
    | nil => simp [isBefore] at htu
    | cons d ds =>
      cases v with
      | nil => simp [isBefore] at huv
      | cons e es =>
        simp only [isBefore] at htu huv ⊢
        by_cases hcd : c = d
        · subst hcd
          by_cases hce : c = e
          · subst hce
            simp only [if_true] at htu huv ⊢
            exact ih htu huv
          · simpa [hce] using huv
        · by_cases hde : d = e
          · subst hde
            simpa [hcd] using htu
          · simp only [hcd, hde, if_false, decide_eq_true_eq] at htu huv
            have hce : c ≠ e := by
              intro h
              subst h
              omega
            simp only [hce, if_false, decide_eq_true_eq]
            omega

/-- Of two texts that differ, one stands before the other. -/
theorem isBefore_of_ne {t u : Text} (htu : isBefore t u = false) (hne : t ≠ u) :
    isBefore u t = true := by
  induction t generalizing u with
  | nil =>
    cases u with
    | nil => exact absurd rfl hne
    | cons d ds => simp [isBefore] at htu
  | cons c cs ih =>
    cases u with
    | nil => rfl
    | cons d ds =>
      simp only [isBefore] at htu ⊢
      by_cases hcd : c = d
      · subst hcd
        simp only [if_true] at htu ⊢
        exact ih htu (by intro h; exact hne (by rw [h]))
      · simp only [hcd, if_false, decide_eq_false_iff_not] at htu
        have hdc : d ≠ c := fun h => hcd h.symm
        have hval : c.val ≠ d.val := fun h => hcd (Fin.ext h)
        simp only [hdc, if_false, decide_eq_true_eq]
        omega

end ImportClosure.Text
