import Chip8.Keys.Script
import Chip8.Main
import Chip8.Memory.Views
import Chip8.Proofs.Hosting
import Chip8.Proofs.Returns
import Chip8.Proofs.Loading
import Chip8.Proofs.Finality
import Chip8.Proofs.Integrity
import Chip8.Proofs.Guards
import Chip8.Proofs.Ranges
import Chip8.Proofs.Cadence
import Chip8.Proofs.Silence
import Chip8.Proofs.Trails
import Chip8.Proofs.Summaries
import Chip8.Proofs.Splitting
import Chip8.Proofs.Pacing
import Chip8.Proofs.Grammar
import Chip8.Proofs.Writing
import Chip8.Proofs.Sessions
import Chip8.Proofs.Pictures
import Chip8.Proofs.Randomness
import Chip8.Proofs.Reloading
import Chip8.Proofs.Holding
import Chip8.Proofs.Losses
import Chip8.Proofs.Countdown
import Chip8.Proofs.Stacking
import Chip8.Proofs.Sprites
import Chip8.Proofs.Overlays
import Chip8.Proofs.Arithmetic
import Chip8.Proofs.Naming
import Chip8.Proofs.Scripts
import Chip8.Proofs.Transfers
import Chip8.Proofs.Waiting
import Chip8.Proofs.Oversized
import Chip8.Proofs.Spellings
import Chip8.Proofs.Readings
import Chip8.Proofs.Panels
import Chip8.Proofs.Trimming
import Chip8.Proofs.Coherence
import Chip8.Proofs.Numbering
