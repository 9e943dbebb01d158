namespace Phrasebook

-- An outcome together with the names of the suppliers and tag functions called
-- on the way, in order. A failure keeps the calls made before it.
structure Traced (ε α : Type) where
  calls : List String
  outcome : Except ε α

namespace Traced

def ok (value : α) : Traced ε α := ⟨[],.ok value⟩

def fail (error : ε) : Traced ε α := ⟨[],.error error⟩

def ofExcept (outcome : Except ε α) : Traced ε α := ⟨[],outcome⟩

def andThen (first : Traced ε α) (next : α → Traced ε β) : Traced ε β :=
  match first.outcome with
  | .ok value =>
    let later := next value
    ⟨first.calls ++ later.calls,later.outcome⟩
  | .error error => ⟨first.calls,.error error⟩

instance : Monad (Traced ε) where
  pure := ok
  bind := andThen

def mapError (convert : ε → δ) (traced : Traced ε α) : Traced δ α :=
  ⟨traced.calls,traced.outcome.mapError convert⟩

end Traced
end Phrasebook
