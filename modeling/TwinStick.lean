import TwinStick.Bench
import TwinStick.Hardware.Pins
import TwinStick.Hex
import TwinStick.Proofs.Packing
import TwinStick.Proofs.Records
import TwinStick.Proofs.Lossless
import TwinStick.Proofs.Region
import TwinStick.Proofs.Access
import TwinStick.Proofs.Loading
import TwinStick.Proofs.Recovery
import TwinStick.Proofs.Repair
import TwinStick.Proofs.Saving
import TwinStick.Proofs.DirtyFlag
import TwinStick.Proofs.Attempts
import TwinStick.Proofs.Orderly
import TwinStick.Proofs.Bootable
import TwinStick.Proofs.Burst
import TwinStick.Proofs.Mirror
import TwinStick.Proofs.Visits
import TwinStick.Proofs.WriteThrough
import TwinStick.Proofs.Agreement
import TwinStick.Proofs.Ensures
import TwinStick.Proofs.Damage
import TwinStick.Proofs.PowerCycle
import TwinStick.Proofs.Emission
import TwinStick.Proofs.Effects
import TwinStick.Proofs.Moves
import TwinStick.Proofs.PairedRuns
import TwinStick.Proofs.PairedTables
import TwinStick.Proofs.Touches
import TwinStick.Proofs.Copies
import TwinStick.Proofs.HeldKeys
import TwinStick.Proofs.TouchPower
import TwinStick.Proofs.Decisions
import TwinStick.Proofs.SideBySide
import TwinStick.Proofs.TouchViews
import TwinStick.Proofs.TouchInfluence
import TwinStick.Proofs.TrueTime
import TwinStick.Proofs.RateGate
import TwinStick.Proofs.Debounce
import TwinStick.Proofs.Edges
import TwinStick.Proofs.TrackedList
import TwinStick.Proofs.LaterInputs
import TwinStick.Proofs.StoresSideBySide
import TwinStick.Proofs.LaterRecords
import TwinStick.Proofs.LaterStore
import TwinStick.Proofs.LaterController
import TwinStick.Proofs.Timestamps
import TwinStick.Proofs.ClockOrigin
import TwinStick.Proofs.Veil
import TwinStick.Proofs.VeiledRecords
import TwinStick.Proofs.VeiledStore
import TwinStick.Proofs.VeiledController
import TwinStick.Proofs.VeiledRuns
import TwinStick.Proofs.SticksApart
import TwinStick.Proofs.DebugLines
import TwinStick.Proofs.HeldStick
import TwinStick.Proofs.AxisReports
import TwinStick.Proofs.DailyUse
import TwinStick.Proofs.Completion
import TwinStick.Proofs.FaultFree
import TwinStick.Proofs.LoadPaths
import TwinStick.Proofs.TrackedPress
import TwinStick.Proofs.OppositeKeys
import TwinStick.Proofs.DeadzoneFlag
import TwinStick.Proofs.Refusals
import TwinStick.Proofs.AutoSave
import TwinStick.Proofs.Exchange
import TwinStick.Proofs.ComboSets
import TwinStick.Proofs.FirstBoot
import TwinStick.Proofs.Convergence
import TwinStick.Proofs.Names
import TwinStick.Proofs.Calibration
import TwinStick.Proofs.ModeSwitches
