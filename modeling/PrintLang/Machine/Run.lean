import PrintLang.Machine.Step

set_option autoImplicit false

namespace PrintLang

namespace Machine

/-- Takes at most `fuel` instructions. Without a stop, the machine has halted or `fuel` has run out. -/
def runFor (p : Image) : (fuel : Nat) → Machine → Machine × Option Stop
  | 0, m => (m, none)
  | fuel + 1, m =>
    if m.halted then (m, none)
    else match step p m with
      | (m, none) => runFor p fuel m
      | (m, some s) => (m, some s)

/-- The number of instructions to try: with a limit, the rest up to it and one more, which meets the
limit; without one, more than any run can take. -/
def budget (m : Machine) : Nat :=
  if 0 < m.maxSteps then m.maxSteps.toNat - m.steps + 1 else 4611686018427387904

def run (p : Image) (entry : Bytes) (m : Machine) : Machine × Option Stop :=
  match p.lookup? entry with
  | some ⟨.text, a⟩ => runFor p m.budget { m with rip := a }
  | _ => (m, some (.unknownEntry entry))

end Machine

end PrintLang
