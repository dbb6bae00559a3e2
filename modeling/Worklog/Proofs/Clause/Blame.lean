import Worklog.Proofs.Chain
import Worklog.Proofs.Clause.Lookahead

/-!
# The token that a refusal points at

A reader that refuses its tokens may point at the first of them that cannot stand where it does, or
at the end (`BlamesFirst`): the tokens before it begin something that is written, and whatever
follows it, the refusal is the same. The property is closed under reading tokens first
(`BlamesFirst.behind`) and under chaining (`BlamesFirst.bind_left`, `BlamesFirst.bind_right`). That
the second of two readers may be judged by itself rests on how far the first one looks (`ReadsAs`):
the one token more that it has seen is the blamed one or stands before it.
-/

namespace Worklog

namespace Clause

variable {α β : Type} {fields : List String} {stop : Position}

/-! ## Blame -/

/-- The place of the first token, or of the end if there is none. -/
def placeOf (stop : Position) : List Token → Position
  | [] => stop
  | t :: _ => t.position

/-- The tokens can be completed to something written. -/
def Begins (written : α → List Token → Prop) (before : List Token) : Prop :=
  ∃ a more, written a (before ++ more)

/-- The error is placed at the head of `rest`, and is the same before all that begins so. -/
structure Blames (read : Reader α) (stop : Position) (before rest : List Token)
    (e : QueryError) : Prop where
  position_eq : e.position = some (placeOf stop rest)
  refuses : ∀ stop' rest', rest'.head? = rest.head? → (rest = [] → stop' = stop) →
    read stop' (before ++ rest') = .error e

/-- The error blames the first token that cannot stand behind those before it. -/
def BlamesFirst (read : Reader α) (viable : List Token → Prop) (stop : Position)
    (tokens : List Token) (e : QueryError) : Prop :=
  ∃ before rest, tokens = before ++ rest ∧ viable before ∧ Blames read stop before rest e

namespace BlamesFirst

variable {viable viable' : List Token → Prop} {tokens : List Token} {e : QueryError}

theorem mono {read : Reader α} (h : BlamesFirst read viable stop tokens e)
    (hv : ∀ before, viable before → viable' before) : BlamesFirst read viable' stop tokens e := by
  obtain ⟨before, rest, rfl, hb, he⟩ := h
  exact ⟨before, rest, rfl, hv before hb, he⟩

/-- A reader that refuses whatever another one refuses blames the same token. -/
theorem imp {read : Reader α} {read' : Reader β} (h : BlamesFirst read viable stop tokens e)
    (hr : ∀ stop tokens, read stop tokens = .error e → read' stop tokens = .error e) :
    BlamesFirst read' viable stop tokens e := by
  obtain ⟨before, rest, rfl, hb, he⟩ := h
  refine ⟨before, rest, rfl, hb, he.position_eq, fun stop' rest' hh hs => ?_⟩
  exact hr stop' _ (he.refuses stop' rest' hh hs)

/-- A reader that misses a first token blames the end. -/
theorem at_end {read : Reader α} (hv : viable []) (hp : e.position = some stop)
    (h : read stop [] = .error e) : BlamesFirst read viable stop [] e := by
  refine ⟨[], [], rfl, hv, hp, fun stop' rest' hh hs => ?_⟩
  rw [eq_nil_of_head? hh, hs rfl]
  exact h

/-- A reader that refuses by the first token blames it. -/
theorem at_head {read : Reader α} {t : Token} {rest : List Token} (hv : viable [])
    (hp : e.position = some t.position) (h : ∀ stop rest, read stop (t :: rest) = .error e) :
    BlamesFirst read viable stop (t :: rest) e := by
  refine ⟨[], t :: rest, rfl, hv, hp, fun stop' rest' hh _ => ?_⟩
  obtain ⟨tail, rfl⟩ := eq_cons_of_head? hh
  exact h stop' tail

/-- What is refused behind some tokens is refused together with them. -/
theorem behind {read : Reader α} {n : Reader β} {u : List Token}
    (hr : ∀ stop rest, n stop rest = .error e → read stop (u ++ rest) = .error e)
    (h : BlamesFirst n (fun before => viable (u ++ before)) stop tokens e) :
    BlamesFirst read viable stop (u ++ tokens) e := by
  obtain ⟨before, rest, rfl, hb, he⟩ := h
  refine ⟨u ++ before, rest, by simp, hb, he.position_eq, fun stop' rest' hh hs => ?_⟩
  rw [List.append_assoc]
  exact hr stop' _ (he.refuses stop' rest' hh hs)

theorem cons {read n : Reader α} {t : Token}
    (hr : ∀ stop rest, read stop (t :: rest) = n stop rest)
    (h : BlamesFirst n (fun before => viable (t :: before)) stop tokens e) :
    BlamesFirst read viable stop (t :: tokens) e :=
  behind (u := [t]) (fun stop rest he => (hr stop rest).trans he) h

/-- What the first of two readers refuses, both refuse. -/
theorem bind_left {r : Reader α} {f : Position → α → Except QueryError β}
    (h : BlamesFirst r viable stop tokens e) :
    BlamesFirst (fun stop tokens => r stop tokens >>= f stop) viable stop tokens e := by
  refine h.imp fun stop tokens he => ?_
  simp only [he]
  rfl

/-- What the second of two readers refuses, both refuse behind what the first has read. -/
theorem bind_right {read : Reader (α × List Token)} {a : α} {ts rest : List Token}
    {f : Position → α × List Token → Except QueryError β} (hr : ReadsAs read a ts rest)
    (h : BlamesFirst (fun stop rest => f stop (a, rest)) (fun before => viable (ts ++ before))
      stop rest e) :
    BlamesFirst (fun stop tokens => read stop tokens >>= f stop) viable stop (ts ++ rest) e := by
  -- The first reader looks at one token more, which is the blamed one or stands before it.
  obtain ⟨before, rest, rfl, hb, he⟩ := h
  refine ⟨ts ++ before, rest, by simp, hb, he.position_eq, fun stop' rest' hh hs => ?_⟩
  rw [List.append_assoc, hr stop' (before ++ rest') (head?_append_congr before hh)]
  exact he.refuses stop' rest' hh hs

end BlamesFirst

theorem position_refusal (stop : Position) (tokens : List Token) (cause : String → Cause) :
    (refusal stop tokens cause).position = some (placeOf stop tokens) := by
  cases tokens with
  | nil => rfl
  | cons t rest =>
    simp only [refusal]
    split <;> rfl

/-- A refusal of the first token, whatever follows it, blames that token. -/
theorem blamesFirst_refusal {read : Reader α} {viable : List Token → Prop} {t : Token}
    {cause : String → Cause} (hv : viable [])
    (h : ∀ stop rest, read stop (t :: rest) = .error (refusal stop (t :: rest) cause))
    (rest : List Token) :
    BlamesFirst read viable stop (t :: rest) (refusal stop (t :: rest) cause) :=
  .at_head hv (position_refusal ..) h

end Clause

end Worklog
