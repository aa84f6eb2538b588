import ChipEight.Main
import ChipEight.Proofs.Machine.Bounds
import ChipEight.Proofs.Machine.Mirror
import ChipEight.Proofs.Machine.Nesting
import ChipEight.Proofs.Machine.Refusal
import ChipEight.Proofs.Machine.Waiting
import ChipEight.Proofs.Machine.Verdict
import ChipEight.Proofs.Machine.History
import ChipEight.Proofs.Machine.Clock
import ChipEight.Proofs.Machine.Senses
import ChipEight.Proofs.Machine.RandomBytes
import ChipEight.Proofs.Machine.Writes
import ChipEight.Proofs.Machine.Parts
import ChipEight.Proofs.Machine.Redraw
import ChipEight.Proofs.Player.Script
import ChipEight.Proofs.Player.Pacing
import ChipEight.Proofs.Player.HeldKeys
import ChipEight.Proofs.Player.Listed
import ChipEight.Proofs.Player.Ending
import ChipEight.Proofs.Player.Idling
import ChipEight.Proofs.Machine.Countdown
import ChipEight.Proofs.Machine.KeyMoves
import ChipEight.Proofs.Machine.Sprites
import ChipEight.Proofs.Machine.Arithmetic
import ChipEight.Proofs.Instruction.Mnemonic
import ChipEight.Proofs.Listing
import ChipEight.Proofs.Machine.Branching
import ChipEight.Proofs.Machine.Copying
import ChipEight.Proofs.Machine.Commuting
import ChipEight.Proofs.Machine.CallDepth
import ChipEight.Proofs.Machine.EndOfMemory
import ChipEight.Proofs.Screen.Superposition
import ChipEight.Proofs.Machine.Glyphs
import ChipEight.Proofs.Screen.Text
