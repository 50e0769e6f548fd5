/-
  Minting — semaphores with a fresh name and some permits to begin with.

  A number of permits that is negative is refused before anything else; then a name is drawn, the
  semaphore is made, and its callers release as many permits as asked for.  If a store is given whose
  callers wait in another way, they release what such callers can (`Semaphore.Mixed`).

  There are two of it (`Direct.mint`, `Awaited.mint`), and both are equal to one form (`mint_eq`).
-/
import Permits.Semaphore.Mixed

namespace Permits.Semaphore

namespace Direct

/-- Releases permits into a semaphore that was made. -/
def fill (s : Semaphore) (value : Value) : Op Unit :=
  match s.store.style with
  | .direct => do
    let _ ← release s value
  | .awaited => Mixed.releaseUnseen s value

/-- A semaphore with a fresh name and `value` permits, for callers that wait on the spot. -/
def mint (options : Options) (source : SourceRef) (value : Value) : Op Semaphore := do
  if ← .ofExcept (isBelow 0 value) then Op.fail .valueNegative
  else
    let name ← Identifier.mint source
    let s ← create options (.text name)
    if value.isTrue then
      fill s value
      return s
    else return s

end Direct

namespace Awaited

/-- Releases permits into a semaphore that was made. -/
def fill (s : Semaphore) (value : Value) : Op Unit :=
  match s.store.style with
  | .direct => Mixed.releaseUnseen s value
  | .awaited => do
    let _ ← release s value

/-- A semaphore with a fresh name and `value` permits, for callers that await. -/
def mint (options : Options) (source : SourceRef) (value : Value) : Op Semaphore := .coroutine do
  if ← .ofExcept (isBelow 0 value) then Op.fail .valueNegative
  else
    let name ← Identifier.mint source
    let s ← create options (.text name)
    if value.isTrue then
      fill s value
      return s
    else return s

end Awaited

/-- A semaphore with a fresh name and `value` permits to begin with. -/
def mint (options : Options) (source : SourceRef) (value : Value) : Op Semaphore :=
  match options.style with
  | .direct => Direct.mint options source value
  | .awaited => Awaited.mint options source value

/-! ## One form for both -/

/-- What callers of a style release into a semaphore that they have made. -/
def fill (style : Style) (s : Semaphore) (value : Value) : Op Unit :=
  if s.store.style = style then do
    let _ ← s.release value
  else Mixed.releaseUnseen s value

theorem fill_of_eq {style : Style} {s : Semaphore} (h : s.store.style = style) (value : Value) :
    fill style s value = (do
      let _ ← s.release value) :=
  if_pos h

theorem fill_of_ne {style : Style} {s : Semaphore} (h : s.store.style ≠ style) (value : Value) :
    fill style s value = Mixed.releaseUnseen s value :=
  if_neg h

/-- A count is refused by this library itself. -/
theorem isOwn_of_releaseCount {n : Value} {f : Failure} (h : releaseCount n = .error f) :
    f.isOwn = true := by
  unfold releaseCount at h
  cases low : isBelow 1 n with
  | error e =>
    rw [low] at h
    cases h
    exact isOwn_of_isBelow low
  | ok below =>
    rw [low] at h
    cases below with
    | true =>
      cases h
      rfl
    | false => exact isOwn_of_rounds h

theorem direct_fill (s : Semaphore) (value : Value) : Direct.fill s value = fill .direct s value := by
  unfold Direct.fill
  cases h : s.store.style with
  | direct => rw [fill_of_eq h, release, h]
  | awaited => rw [fill_of_ne (by rw [h]; decide)]

theorem awaited_fill (s : Semaphore) (value : Value) :
    Op.coroutine (Awaited.fill s value) = fill .awaited s value := by
  unfold Awaited.fill
  cases h : s.store.style with
  | direct =>
    rw [fill_of_ne (by rw [h]; decide)]
    simp only [Mixed.releaseUnseen, Mixed.release, h, Op.coroutine_bind, Op.coroutine_pure,
      Op.coroutine_coroutine, Op.coroutine_check fun _ => isOwn_of_releaseCount]
  | awaited =>
    rw [fill_of_eq h, release, h]
    simp only [Op.coroutine_bind, Op.coroutine_pure, Awaited.release, Op.coroutine_coroutine]

/-- **Semaphores of both styles are minted in one way.** -/
theorem mint_eq (options : Options) (source : SourceRef) (value : Value) :
    mint options source value = (do
      if ← .ofExcept (isBelow 0 value) then Op.fail .valueNegative
      else
        let name ← Identifier.mint source
        let s ← (create options (.text name)).waitedFor options.style
        if value.isTrue then
          fill options.style s value
          return s
        else return s) := by
  unfold mint create Op.waitedFor
  cases options.style with
  | direct => simp only [Direct.mint, direct_fill]
  | awaited =>
    have negative : Op.coroutine (.fail .valueNegative : Op Semaphore) = .fail .valueNegative :=
      Op.coroutine_fail rfl
    simp only [Awaited.mint, Op.coroutine_bind, apply_ite, negative, Op.coroutine_pure,
      Op.coroutine_check fun _ => isOwn_of_isBelow, Identifier.coroutine_mint, awaited_fill]

end Permits.Semaphore
