import FpgaProgrammer.Main
import FpgaProgrammer.Proofs.Host.Evaluation
import FpgaProgrammer.Proofs.Simulator.Calls
import FpgaProgrammer.Proofs.Simulator.Status
import FpgaProgrammer.Proofs.Bytes.Words
import FpgaProgrammer.Proofs.Simulator.Gate
import FpgaProgrammer.Proofs.Programming.SramErase
import FpgaProgrammer.Proofs.Programming.SramLoad
import FpgaProgrammer.Proofs.Programming.SramProgram
import FpgaProgrammer.Proofs.Programming.FlashErase
import FpgaProgrammer.Proofs.Bytes.Blocks
import FpgaProgrammer.Proofs.Programming.FlashWrite
import FpgaProgrammer.Proofs.Programming.FlashProgram
import FpgaProgrammer.Proofs.Bytes.Bits
import FpgaProgrammer.Proofs.Spi.BitBang
import FpgaProgrammer.Proofs.Spi.Calls
import FpgaProgrammer.Proofs.Spi.ShiftRegister
import FpgaProgrammer.Proofs.Host.Runs
import FpgaProgrammer.Proofs.Host.Closed
import FpgaProgrammer.Proofs.Instructions.Sent
import FpgaProgrammer.Proofs.Spi.Closed
import FpgaProgrammer.Proofs.Instructions.RawImage
import FpgaProgrammer.Proofs.Simulator.Reachable
import FpgaProgrammer.Proofs.Programming.FlashEmptied
import FpgaProgrammer.Proofs.Programming.FlashFirmware
import FpgaProgrammer.Proofs.Instructions.Order
import FpgaProgrammer.Proofs.Instructions.SafeOrder
import FpgaProgrammer.Proofs.Instructions.WriteStages
import FpgaProgrammer.Proofs.Instructions.SessionOrder
import FpgaProgrammer.Proofs.Failures.FailStop
import FpgaProgrammer.Proofs.Failures.Operations
import FpgaProgrammer.Proofs.Spi.ChipSelect
import FpgaProgrammer.Proofs.Programming.GateClosed
import FpgaProgrammer.Proofs.Simulator.Twins
import FpgaProgrammer.Proofs.Programming.Logging
import FpgaProgrammer.Proofs.Instructions.ExternalFlash
import FpgaProgrammer.Proofs.Bytes.Access
import FpgaProgrammer.Proofs.Nor.Checked
import FpgaProgrammer.Proofs.Simulator.Checked
import FpgaProgrammer.Proofs.Simulator.Coherent
import FpgaProgrammer.Proofs.Simulator.Shut
import FpgaProgrammer.Proofs.Device.Profile
import FpgaProgrammer.Proofs.Programming.FreshDevice
import FpgaProgrammer.Proofs.CommandLine.Outcome
import FpgaProgrammer.Proofs.CommandLine.ProgramOutcome
import FpgaProgrammer.Proofs.Nor.Cells
import FpgaProgrammer.Proofs.Nor.Protection
import FpgaProgrammer.Proofs.Nor.ReadBack
import FpgaProgrammer.Session.InPlace
import FpgaProgrammer.Proofs.Session.Reuse
import FpgaProgrammer.Proofs.Failures.Accepted
import FpgaProgrammer.Proofs.Failures.Refusals
import FpgaProgrammer.Proofs.Calls.Script
import FpgaProgrammer.Proofs.Calls.Simulated
import FpgaProgrammer.Proofs.Calls.SramStream
import FpgaProgrammer.Proofs.Calls.EraseAttempts
import FpgaProgrammer.Proofs.Programming.StubbornErase
import FpgaProgrammer.Proofs.Calls.FlashPages
import FpgaProgrammer.Proofs.Programming.FlashOverlay
import FpgaProgrammer.Proofs.Calls.Seen
import FpgaProgrammer.Proofs.Spi.Waveform
import FpgaProgrammer.Proofs.Spi.Polling
import FpgaProgrammer.Proofs.Nor.StatusRead
import FpgaProgrammer.Proofs.Spi.BusyWait
import FpgaProgrammer.Proofs.Progress.Quiet
import FpgaProgrammer.Proofs.Progress.Blocks
import FpgaProgrammer.Proofs.Progress.Journal
import FpgaProgrammer.Proofs.Text.Numeral
import FpgaProgrammer.Proofs.Text.HexWord
import FpgaProgrammer.Proofs.Nor.PageProgram
import FpgaProgrammer.Proofs.Session.Opening
import FpgaProgrammer.Proofs.Bytes.Checksum
import FpgaProgrammer.Proofs.Simulator.Noise
import FpgaProgrammer.Proofs.Programming.SramNoise
import FpgaProgrammer.Proofs.Programmer.Choice
import FpgaProgrammer.Proofs.Programmer.Options
import FpgaProgrammer.Proofs.Device.Waiting
