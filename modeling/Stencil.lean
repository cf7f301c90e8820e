import Stencil.Main
import Stencil.Proofs.Component.Agreement
import Stencil.Proofs.Component.Effect
import Stencil.Proofs.Component.Slug
import Stencil.Proofs.Json.Lexemes
import Stencil.Proofs.Json.RoundTrip
import Stencil.Proofs.Json.Results
import Stencil.Proofs.Json.Room
import Stencil.Proofs.Markup.DocumentOrder
import Stencil.Proofs.Markup.Legible
import Stencil.Proofs.Markup.Mention
import Stencil.Proofs.Markup.Nesting
import Stencil.Proofs.Markup.Print
import Stencil.Proofs.Markup.ReadBack
import Stencil.Proofs.Markup.Segmentation
import Stencil.Proofs.Storage.Below
import Stencil.Proofs.Storage.Frame
import Stencil.Proofs.Storage.Growth
import Stencil.Proofs.Storage.ReadBack
import Stencil.Proofs.Template.Appending
import Stencil.Proofs.Template.ButtonClasses
import Stencil.Proofs.Template.Filling
import Stencil.Proofs.Template.FixedClasses
import Stencil.Proofs.Template.Labels
import Stencil.Proofs.Template.NoCollision
import Stencil.Proofs.Template.OwnKeys
import Stencil.Proofs.Template.Place
import Stencil.Proofs.Template.Placeholders
import Stencil.Proofs.Template.ReadBack
import Stencil.Proofs.Template.Refill
import Stencil.Proofs.Template.RoundTrip
import Stencil.Proofs.Template.Sites
import Stencil.Proofs.Template.Switches
import Stencil.Proofs.Template.Thinning
import Stencil.Proofs.Template.TwoPhases
import Stencil.Proofs.Template.Walk
import Stencil.Proofs.Template.Written
import Stencil.Proofs.Text.Blank
import Stencil.Proofs.Text.Cut
import Stencil.Proofs.Text.Find
import Stencil.Proofs.Text.Lower
import Stencil.Proofs.Text.Numeral
import Stencil.Proofs.Text.Pieces
import Stencil.Proofs.Text.Utf8
import Stencil.Proofs.Component.Target
import Stencil.Proofs.CommandLine.Outcomes
import Stencil.Proofs.CommandLine.Batch
import Stencil.Proofs.Component.Storable
import Stencil.Proofs.CommandLine.Generate
import Stencil.Proofs.Component.Contents
import Stencil.Proofs.Template.ClassKeys
import Stencil.Proofs.Template.ButtonNumbers
import Stencil.Proofs.Template.TextKeys
import Stencil.Proofs.Markup.CutOff
import Stencil.Proofs.Markup.WellFormed
import Stencil.Proofs.Markup.Grammar
import Stencil.Proofs.Markup.StartTag
import Stencil.Proofs.Component.SlugForm
import Stencil.Proofs.Markup.Texts
import Stencil.Proofs.Template.Literals
import Stencil.Proofs.Template.Wording
import Stencil.Proofs.Text.Runs
import Stencil.Proofs.Text.References
import Stencil.Proofs.Text.Words
import Stencil.Proofs.Text.SortedSet
import Stencil.Proofs.Value.Written
import Stencil.Proofs.Yaml.Hexadecimal
import Stencil.Proofs.Request.Normal
